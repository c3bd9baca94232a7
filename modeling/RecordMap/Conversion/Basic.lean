import RecordMap.Callback
import RecordMap.Pairing

/-!
# Conversion trees

How a value of one type becomes a value of another is a tree of steps, chosen
when a mapping is resolved and run at every call.  The tree says everything: the
types whose options it opens and closes, the sequences it walks, and the leaf
that does the work.
-/

namespace RecordMap

/-- The steps from a source type to a target type. -/
inductive Conversion where
  /-- The types are the same. -/
  | passThrough (type : Ty)
  | converter (c : Converter)
  /-- A conversion operator of the defaults. -/
  | operator (c : Converter)
  /-- The primitive table. -/
  | primitive (source target : Primitive)
  /-- A variant to its underlying integer, or to its name. -/
  | fromEnum (enum : String) (target : Primitive)
  /-- An integer or a name to a variant. -/
  | toEnum (source : Primitive) (enum : String)
  /-- A variant to the variant of the same name. -/
  | enumToEnum (source target : String)
  /-- Open an option; an empty one makes the value absent. -/
  | unwrap (inner : Ty) (next : Conversion)
  /-- Convert, then put the result into an option. -/
  | wrap (inner : Ty) (next : Conversion)
  /-- Put the source into an option, then convert. -/
  | wrapSource (source : Ty) (next : Conversion)
  /-- Convert a sequence element by element. -/
  | elements (source target : Ty) (next : Conversion)
  /-- Construct through the mapper of another pairing. -/
  | nested (pairing : Pairing)

namespace Conversion

/-- A nested mapper is involved. -/
def isNested : Conversion → Bool
  | nested _ => true
  | unwrap _ next | wrap _ next | wrapSource _ next | elements _ _ next => next.isNested
  | _ => false

/-- The tree only copies, perhaps opening or closing options. -/
def isPassThrough : Conversion → Bool
  | passThrough _ => true
  | unwrap _ next | wrap _ next => next.isPassThrough
  | _ => false

/-- The converters and operators in the tree. -/
def converters : Conversion → List Converter
  | converter c | operator c => [c]
  | unwrap _ next | wrap _ next | wrapSource _ next | elements _ _ next => next.converters
  | _ => []

/-- The pairings of the nested mappers in the tree. -/
def pairings : Conversion → List Pairing
  | nested p => [p]
  | unwrap _ next | wrap _ next | wrapSource _ next | elements _ _ next => next.pairings
  | _ => []

theorem isNested_iff (c : Conversion) : c.isNested = true ↔ c.pairings ≠ [] := by
  induction c with
  | unwrap t n ih => simpa [isNested, pairings] using ih
  | wrap t n ih => simpa [isNested, pairings] using ih
  | wrapSource t n ih => simpa [isNested, pairings] using ih
  | elements s t n ih => simpa [isNested, pairings] using ih
  | _ => simp [isNested, pairings]

end Conversion

end RecordMap
