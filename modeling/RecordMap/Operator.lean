import RecordMap.Callback
import RecordMap.Scalar

/-!
# Operators

An operator is a conversion that exists by the types alone and always succeeds:
from a type to itself or to an option over it, between primitive types when no
value is lost, between texts and foreign values, and between records by copying
the members they share.
-/

namespace RecordMap.Operator

/-- Every value of the first primitive type is a value of the second. -/
def lossless : Primitive → Primitive → Bool
  | .bool, .int _ | .bool, .float _ => true
  | .char, .text => true
  | .char, .int t => !t.signed && 32 ≤ t.bits
  | .int .u8, .char => true
  | .int a, .int b => b.lo ≤ a.lo && a.hi ≤ b.hi
  | .int a, .float t => a.bits - (if a.signed then 1 else 0) ≤ t.precision
  | .float .f32, .float .f64 => true
  | a, b => a = b

/-- A record of the target type with the members it shares with a record: those
of the same name and type.  The others are zero. -/
def copyShared (σ : Schema) (target : String) : Value → Value
  | .record source members =>
      .record target ((σ.fields target).map fun f =>
        let shared := (σ.fields source).findIdx? fun g => g.name = f.name ∧ g.type = f.type
        (shared.bind (members[·]?)).getD (Value.zero σ f.type))
  | _ => Value.zero σ (.record target)

/-- The value of a lossless cast. -/
def widen (a b : Primitive) (v : Value) : Value :=
  match a.cast b v with
  | .ok (some out) => out
  | _ => Value.zeroOf b

/-- **The operator between two types**, if there is one. -/
def between? (σ : Schema) (source target : Ty) : Option (Value → Value) :=
  if source = target then some id
  else if target = .option source then some .present
  else
    match source, target with
    | .prim a, .prim b => if lossless a b then some (widen a b) else none
    | .prim .text, .foreign n => some fun
        | .text s => .foreign n s
        | v => v
    | .foreign _, .prim .text => some fun
        | .foreign _ s => .text s
        | v => v
    | .record _, .record target => some (copyShared σ target)
    | _, _ => none

/-- The operator between two types as a converter under a label. -/
def converter? (σ : Schema) (source target : Ty) (label : Option String) : Option Converter :=
  (between? σ source target).map fun f => { source, target, label, body := .plain f }

end RecordMap.Operator
