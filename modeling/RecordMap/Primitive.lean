/-!
# Primitive types

The scalar types a member can have: truth values, characters, integers of ten
widths, two floating formats and text.  The module fixes what each of them is
called, which integers an integer type holds, and which pairs the conversion
table joins at all.

`Primitive.convertsTo` is the build-time half of that table.  The run-time half
is `Scalar.write` in `RecordMap.Scalar`.
-/

namespace RecordMap

-- Powers are the built-in ones, whichever library is in scope.
attribute [local instance (high)] instPowNat

/-! ## §1. Integer types -/

/-- The integer types, by width and sign.  The pointer-sized ones have 64 bits
and are types of their own. -/
inductive IntType where
  | i8 | i16 | i32 | i64 | isize
  | u8 | u16 | u32 | u64 | usize
  deriving DecidableEq, Repr, Hashable

namespace IntType

/-- Width in bits. -/
def bits : IntType → Nat
  | .i8 | .u8 => 8
  | .i16 | .u16 => 16
  | .i32 | .u32 => 32
  | .i64 | .u64 | .isize | .usize => 64

/-- Whether the type has negative values. -/
def signed : IntType → Bool
  | .i8 | .i16 | .i32 | .i64 | .isize => true
  | .u8 | .u16 | .u32 | .u64 | .usize => false

/-- The least value. -/
def lo (t : IntType) : Int :=
  if t.signed then -2 ^ (t.bits - 1) else 0

/-- The greatest value. -/
def hi (t : IntType) : Int :=
  if t.signed then 2 ^ (t.bits - 1) - 1 else 2 ^ t.bits - 1

/-- `n` is a value of the type. -/
def Holds (t : IntType) (n : Int) : Prop := t.lo ≤ n ∧ n ≤ t.hi

instance (t : IntType) (n : Int) : Decidable (t.Holds n) :=
  inferInstanceAs (Decidable (_ ∧ _))

/-- What the type is called. -/
def name : IntType → String
  | .i8 => "i8" | .i16 => "i16" | .i32 => "i32" | .i64 => "i64" | .isize => "isize"
  | .u8 => "u8" | .u16 => "u16" | .u32 => "u32" | .u64 => "u64" | .usize => "usize"

/-- The capitalised name used when a plan is dumped. -/
def symbol : IntType → String
  | .i8 => "I8" | .i16 => "I16" | .i32 => "I32" | .i64 => "I64" | .isize => "Isize"
  | .u8 => "U8" | .u16 => "U16" | .u32 => "U32" | .u64 => "U64" | .usize => "Usize"

/-- Every integer type, signed ones first. -/
def all : List IntType := [.i8, .i16, .i32, .i64, .isize, .u8, .u16, .u32, .u64, .usize]

theorem holds_zero (t : IntType) : t.Holds 0 := by cases t <;> decide

end IntType

/-! ## §2. Floating formats -/

/-- The two binary floating formats, of 32 and of 64 bits. -/
inductive FloatType where
  | f32 | f64
  deriving DecidableEq, Repr, Hashable

namespace FloatType

/-- What the format is called. -/
def name : FloatType → String
  | .f32 => "f32"
  | .f64 => "f64"

/-- The capitalised name used when a plan is dumped. -/
def symbol : FloatType → String
  | .f32 => "F32"
  | .f64 => "F64"

end FloatType

/-! ## §3. Primitives -/

/-- The primitive member types. -/
inductive Primitive where
  | bool
  | char
  | int (t : IntType)
  | float (t : FloatType)
  | text
  deriving DecidableEq, Repr, Hashable

namespace Primitive

/-- The name of a primitive in the conversion table and its faults. -/
def name : Primitive → String
  | .bool => "bool"
  | .char => "char"
  | .int t => t.name
  | .float t => t.name
  | .text => "String"

/-- The capitalised name used when a plan is dumped. -/
def symbol : Primitive → String
  | .bool => "Bool"
  | .char => "Char"
  | .int t => t.symbol
  | .float t => t.symbol
  | .text => "Text"

/-- Every primitive, in the order in which the table lists them. -/
def all : List Primitive :=
  [.bool, .char] ++ IntType.all.map .int ++ [.float .f32, .float .f64, .text]

/-- The primitive of a name. -/
def ofName? (name : String) : Option Primitive := all.find? (·.name == name)

/-- Numbers: everything but truth values, characters and text. -/
def isNumeric : Primitive → Bool
  | .int _ | .float _ => true
  | .bool | .char | .text => false

/-- The integer types. -/
def isIntegral : Primitive → Bool
  | .int _ => true
  | _ => false

/-- **The build-time table.**  There is a path between any two primitives except
from a character to a truth value or a float, and from either of those to a
character.  A path can still fault on the range or the form of a value. -/
def convertsTo : Primitive → Primitive → Bool
  | .char, .bool | .char, .float _ => false
  | .bool, .char | .float _, .char => false
  | _, _ => true

theorem mem_all (p : Primitive) : p ∈ all := by
  cases p with
  | int t => cases t <;> decide
  | float t => cases t <;> decide
  | bool => decide
  | char => decide
  | text => decide

end Primitive

end RecordMap
