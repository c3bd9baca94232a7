import RecordMap.Binary.Notation
import RecordMap.Text.Blank
import RecordMap.Text.Quoted
import RecordMap.Value

/-!
# Scalars and the conversion table

A conversion between two primitive types reads the value into a *scalar* and
writes the scalar as a value of the target type.  Narrowing is checked for
range, a text source is parsed, a text target is formatted.  Integers pass
through the table as integers of up to 128 bits, floats as 64-bit floats, except
that a 32-bit float keeps its own digits when it becomes text.

`Scalar.write` is the run-time half of the table whose build-time half is
`Primitive.convertsTo`.
-/

namespace RecordMap

/-! ## §1. Scalars and faults -/

/-- A primitive value on its way through the table. -/
inductive Scalar where
  | bool (b : Bool)
  | char (c : Char)
  | int (n : Int)
  | float (t : FloatType) (x : Binary)
  | text (s : String)
  deriving DecidableEq, Repr

/-- Why a scalar cannot be written as a value of the target type. -/
inductive ScalarFault where
  /-- The value does not fit the target. -/
  | outOfRange (value : String) (target : Primitive)
  /-- The text is no form of the target. -/
  | parse (text : String) (target : Primitive)
  /-- The table has no path between the two kinds. -/
  | unsupported (value : String) (target : Primitive)
  deriving DecidableEq, Repr

/-- The class of a fault. -/
def ScalarFault.kind : ScalarFault → String
  | outOfRange .. => "OutOfRange"
  | parse .. => "Parse"
  | unsupported .. => "Unsupported"

/-- The wording of a fault. -/
def ScalarFault.message : ScalarFault → String
  | outOfRange value target => value ++ " is out of range for " ++ target.name
  | parse text target => "cannot parse " ++ Text.quote text ++ " as " ++ target.name
  | unsupported value target => "cannot convert " ++ value ++ " to " ++ target.name

namespace Scalar

/-- The text form of a scalar, which is also its value as text. -/
def toText : Scalar → String
  | bool b => if b then "true" else "false"
  | char c => String.singleton c
  | int n => Text.ofInteger n
  | float t x => t.write x
  | text s => s

/-- The form of a scalar in a fault: text is quoted. -/
def describe : Scalar → String
  | text s => Text.quote s
  | s => s.toText

/-! ## §2. Readings of a scalar -/

/-- A 64-bit float as an integer, truncated towards zero.  Not-a-number, the
infinities and everything from `2 ^ 127` on in magnitude are out of range. -/
def floatToInt (target : Primitive) (x : Binary) : Except ScalarFault Int :=
  match x.truncate? with
  | some n =>
      if x.magnitudeBelow 127 then .ok n
      else .error (.outOfRange (FloatType.f64.write x) target)
  | none => .error (.outOfRange (FloatType.f64.write x) target)

/-- The scalar as an integer. -/
def toInt (target : Primitive) : Scalar → Except ScalarFault Int
  | bool b => .ok (if b then 1 else 0)
  | char c => .ok c.toNat
  | int n => .ok n
  | float _ x => floatToInt target (FloatType.f64.convert x)
  | text s =>
      match Text.readInteger? (Text.trim s.toList) with
      | some n => .ok n
      | none => .error (.parse s target)

/-- The scalar as a 64-bit float. -/
def toFloat (target : Primitive) : Scalar → Except ScalarFault Binary
  | bool b => .ok (if b then FloatType.f64.one else FloatType.f64.zero)
  | char c => .error (.unsupported (describe (char c)) target)
  | int n => .ok (FloatType.f64.ofInt n)
  | float _ x => .ok (FloatType.f64.convert x)
  | text s =>
      match FloatType.f64.read? (Text.trim s.toList) with
      | some x => .ok x
      | none => .error (.parse s target)

/-- The scalar as a truth value: numbers other than zero are true, and texts are
read without regard to the case of letters. -/
def toBool (target : Primitive) : Scalar → Except ScalarFault Bool
  | bool b => .ok b
  | char c => .error (.unsupported (describe (char c)) target)
  | int n => .ok (n != 0)
  | float _ x => .ok !x.isZero
  | text s =>
      let word := (Text.trim s.toList).map Char.toLower
      if word = "true".toList then .ok true
      else if word = "false".toList then .ok false
      else .error (.parse s target)

/-- The scalar as a character: an integer is a code point, and a text has to be
one character, white space included. -/
def toChar (target : Primitive) : Scalar → Except ScalarFault Char
  | char c => .ok c
  | int n =>
      if 0 ≤ n ∧ n.toNat.isValidChar then .ok (Char.ofNat n.toNat)
      else .error (.outOfRange (Text.ofInteger n) target)
  | text s =>
      match s.toList with
      | [c] => .ok c
      | _ => .error (.parse s target)
  | s => .error (.unsupported s.describe target)

/-! ## §3. Writing -/

/-- An integer as a value of an integer type that holds it. -/
def narrow (t : IntType) (n : Int) : Except ScalarFault Value :=
  if t.Holds n then .ok (.int t n) else .error (.outOfRange (Text.ofInteger n) (.int t))

/-- A 64-bit float as a value of a format.  A finite float must stay finite. -/
def narrowFloat (t : FloatType) (x : Binary) : Except ScalarFault Value :=
  let y := t.convert x
  if x.isFinite && !y.isFinite then
    .error (.outOfRange (FloatType.f64.write x) (.float t))
  else .ok (.float t y)

/-- **Writing** a scalar as a value of a primitive type. -/
def write (p : Primitive) (s : Scalar) : Except ScalarFault Value :=
  match p with
  | .bool => .bool <$> s.toBool p
  | .char => .char <$> s.toChar p
  | .int t => s.toInt p >>= narrow t
  | .float t => s.toFloat p >>= narrowFloat t
  | .text => .ok (.text s.toText)

end Scalar

/-! ## §4. Casting values -/

namespace Primitive

/-- Read a value of the primitive type; values of other types are not read. -/
def read? (p : Primitive) (v : Value) : Option Scalar :=
  if v.type = .prim p then
    match v with
    | .bool b => some (.bool b)
    | .char c => some (.char c)
    | .int _ n => some (.int n)
    | .float t x => some (.float t x)
    | .text s => some (.text s)
    | _ => none
  else none

/-- **Casting** a value of one primitive type to another.  Nothing comes of a
value that is not of the source type. -/
def cast (source target : Primitive) (v : Value) : Except ScalarFault (Option Value) :=
  match source.read? v with
  | some s => some <$> s.write target
  | none => .ok none

end Primitive

end RecordMap
