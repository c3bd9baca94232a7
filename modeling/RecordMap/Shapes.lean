/-!
# Calling shapes

A mapping can be called in four ways: updating a destination or constructing
one, each without or with an auxiliary parameter.  A mapping is compiled for a
set of these shapes.
-/

namespace RecordMap

/-- A way of calling a mapping. -/
inductive Shape where
  | update | construct | updateWith | constructWith
  deriving DecidableEq, Repr

namespace Shape

/-- The name of a shape in an error. -/
def name : Shape → String
  | update => "update"
  | construct => "construct"
  | updateWith => "update-with-parameter"
  | constructWith => "construct-with-parameter"

/-- The constant of a shape in a dump. -/
def symbol : Shape → String
  | update => "UPDATE"
  | construct => "CONSTRUCT"
  | updateWith => "UPDATE_WITH"
  | constructWith => "CONSTRUCT_WITH"

/-- All shapes in order. -/
def all : List Shape := [update, construct, updateWith, constructWith]

/-- The shapes without a parameter. -/
def isPlain : Shape → Bool
  | update | construct => true
  | updateWith | constructWith => false

end Shape

/-- A set of shapes. -/
structure Shapes where
  contains : Shape → Bool

namespace Shapes

/-- Every shape. -/
def all : Shapes := ⟨fun _ => true⟩

/-- The set of the listed shapes. -/
def ofList (shapes : List Shape) : Shapes := ⟨fun s => shapes.contains s⟩

/-- The shapes of a set in order. -/
def toList (S : Shapes) : List Shape := Shape.all.filter S.contains

/-- The set without the shapes that take no parameter. -/
def withoutPlain (S : Shapes) : Shapes := ⟨fun s => S.contains s && !s.isPlain⟩

/-- No shape is in the set. -/
def isEmpty (S : Shapes) : Bool := S.toList.isEmpty

/-- The number of shapes in the set. -/
def size (S : Shapes) : Nat := S.toList.length

/-- The dump of a set. -/
def dump (S : Shapes) : String :=
  match S.toList with
  | [] => "Shapes(0x0)"
  | shapes => "Shapes(" ++ " | ".intercalate (shapes.map Shape.symbol) ++ ")"

@[ext] theorem ext {S T : Shapes} (h : ∀ s, S.contains s = T.contains s) : S = T := by
  cases S; cases T; congr; funext s; exact h s

@[simp] theorem mem_toList {S : Shapes} {s : Shape} : s ∈ S.toList ↔ S.contains s = true := by
  cases s <;> simp [toList, Shape.all]

end Shapes

end RecordMap
