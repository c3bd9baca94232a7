import RecordMap.Primitive

/-!
# Member types

A member type is a primitive, an enumeration, a record, a foreign type about
which nothing is known but its identity, an option, or a sequence.  Two types
are equal exactly when they are the same type: records with equal members and
integers of equal width stay apart.

Enumerations, records and foreign types are given by name; what the names stand
for is the business of `RecordMap.Schema`.
-/

namespace RecordMap

/-- A member type. -/
inductive Ty where
  | prim (p : Primitive)
  | enum (name : String)
  | record (name : String)
  /-- Only its identity is known. -/
  | foreign (name : String)
  /-- Values that may be absent. -/
  | option (inner : Ty)
  | seq (element : Ty)
  deriving DecidableEq, Repr, Hashable

/-- **Spelling of types**: the name of the text type, and the words for options
and sequences, behind which the type they hold stands in angle brackets. -/
structure Naming where
  text : String
  option : String
  seq : String

namespace Ty

/-- The display name of a type. -/
def name (ν : Naming) : Ty → String
  | prim .text => ν.text
  | prim p => p.name
  | enum n | record n | foreign n => n
  | option t => ν.option ++ "<" ++ t.name ν ++ ">"
  | seq t => ν.seq ++ "<" ++ t.name ν ++ ">"

/-- What stands in angle brackets behind a word. -/
def bracketed? (word : String) (cs : List Char) : Option (List Char) :=
  let lead := word.toList ++ ['<']
  if lead.isPrefixOf cs && cs.getLast? == some '>' then some (cs.drop lead.length).dropLast
  else none

/-- Read a type of at most so many brackets. -/
def readTo? (ν : Naming) (named : String → Option Ty) : Nat → List Char → Option Ty
  | 0, _ => none
  | n + 1, cs =>
      match bracketed? ν.option cs, bracketed? ν.seq cs with
      | some inner, _ => (readTo? ν named n inner).map option
      | none, some inner => (readTo? ν named n inner).map seq
      | none, none => named (String.ofList cs)

/-- **Reading** the spelling of a type, given what single names stand for. -/
def read? (ν : Naming) (named : String → Option Ty) (s : String) : Option Ty :=
  readTo? ν named (s.length + 1) s.toList

/-- The type can represent absence. -/
def isNullable : Ty → Bool
  | option _ => true
  | _ => false

/-- The type is a record. -/
def isRecord : Ty → Bool
  | record _ => true
  | _ => false

/-- What an option holds; any other type itself. -/
def unwrapped : Ty → Ty
  | option t => t
  | t => t

/-- The option over a type.  An option has none: absence is not nested. -/
def wrapped? : Ty → Option Ty
  | option _ => none
  | t => some (option t)

/-- What the type is, in one word, with the primitive it is. -/
def kind : Ty → String
  | prim p => "primitive:" ++ p.name
  | enum _ => "enum"
  | record _ => "record"
  | foreign _ => "opaque"
  | option _ => "nullable"
  | seq _ => "sequence"

@[simp] theorem isNullable_option (t : Ty) : (option t).isNullable = true := rfl

@[simp] theorem unwrapped_option (t : Ty) : (option t).unwrapped = t := rfl

end Ty

end RecordMap
