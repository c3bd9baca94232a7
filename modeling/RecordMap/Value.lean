import RecordMap.Binary.Basic
import RecordMap.Schema

/-!
# Values

A value knows its type: `Value.type` is total and needs no schema, because an
absent option and an empty sequence carry the type they lack a value of.  All
access to a value goes by its type; asking for another type yields nothing.

`Value.zero` is the value a member has before anything is assigned to it.
-/

namespace RecordMap

/-- A value of some member type. -/
inductive Value where
  | bool (b : Bool)
  | char (c : Char)
  | int (t : IntType) (n : Int)
  | float (t : FloatType) (x : Binary)
  | text (s : String)
  /-- A variant of an enumeration, by position. -/
  | enum (name : String) (variant : Nat)
  /-- A record, its members in declaration order. -/
  | record (name : String) (members : List Value)
  /-- A value of a foreign type, known only by its text. -/
  | foreign (name : String) (content : String)
  /-- An empty option over a type. -/
  | absent (inner : Ty)
  | present (v : Value)
  | seq (element : Ty) (items : List Value)
  deriving Repr, Inhabited

namespace Value

/-! ## §1. The type of a value -/

/-- The type of a value. -/
def type : Value → Ty
  | bool _ => .prim .bool
  | char _ => .prim .char
  | int t _ => .prim (.int t)
  | float t _ => .prim (.float t)
  | text _ => .prim .text
  | enum n _ => .enum n
  | record n _ => .record n
  | foreign n _ => .foreign n
  | absent t => .option t
  | present v => .option v.type
  | seq t _ => .seq t

/-- The value itself, if it has the given type. -/
def as? (t : Ty) (v : Value) : Option Value := if v.type = t then some v else none

@[simp] theorem as?_eq_some_iff {t : Ty} {v w : Value} :
    v.as? t = some w ↔ v.type = t ∧ v = w := by
  unfold as?
  split <;> simp_all

theorem as?_type (v : Value) : v.as? v.type = some v := by simp

/-! ## §2. Zero -/

/-- The zero of a primitive. -/
def zeroOf : Primitive → Value
  | .bool => bool false
  | .char => char '\x00'
  | .int t => int t 0
  | .float t => float t t.zero
  | .text => text ""

/-- The zero of a type, with records unfolded to a depth. -/
def zeroTo (σ : Schema) : Nat → Ty → Value
  | _, .prim p => zeroOf p
  | _, .enum e => enum e 0
  | _, .foreign n => foreign n ""
  | _, .option t => absent t
  | _, .seq t => seq t []
  | 0, .record r => record r []
  | n + 1, .record r => record r ((σ.fields r).map fun f => zeroTo σ n f.type)

/-- The depth to which records of a type unfold. -/
def zeroDepth (σ : Schema) : Ty → Nat
  | .record r => σ.rank r + 1
  | _ => 0

/-- **The zero of a type**: zero, false, the null character, the empty text, the
first variant, absence, no elements, and records of zeros.

Records and enumerations are taken to have no default of their own, but the one that
is derived from their parts: the zero of every field, and the first variant. -/
def zero (σ : Schema) (t : Ty) : Value := zeroTo σ (zeroDepth σ t) t

theorem type_zeroOf (p : Primitive) : (zeroOf p).type = .prim p := by cases p <;> rfl

theorem type_zeroTo (σ : Schema) (n : Nat) (t : Ty) : (zeroTo σ n t).type = t := by
  cases t with
  | prim p => cases n <;> simp [zeroTo, type_zeroOf]
  | enum e => cases n <;> rfl
  | record r => cases n <;> rfl
  | foreign f => cases n <;> rfl
  | option t => cases n <;> rfl
  | seq t => cases n <;> rfl

@[simp] theorem type_zero (σ : Schema) (t : Ty) : (zero σ t).type = t := type_zeroTo σ _ t

/-! ## §3. Options and sequences -/

/-- Put a value of the given type into an option. -/
def wrap? (inner : Ty) (v : Value) : Option Value := (v.as? inner).map present

/-- What an option over the given type holds; nothing when it is empty or when
the value is no such option. -/
def content? (inner : Ty) : Value → Option Value
  | present v => v.as? inner
  | _ => none

/-- The elements of a sequence of the given type. -/
def items? (element : Ty) : Value → Option (List Value)
  | seq t items => if t = element then some items else none
  | _ => none

/-- Collect values of the given type into a sequence. -/
def collect? (element : Ty) (vs : List Value) : Option Value :=
  if vs.all (·.type = element) then some (seq element vs) else none

theorem wrap?_eq_some_iff {t : Ty} {v w : Value} :
    v.wrap? t = some w ↔ v.type = t ∧ w = present v := by
  unfold wrap? as?
  split <;> simp_all [eq_comm]

theorem content?_present {t : Ty} {v : Value} (h : v.type = t) :
    (present v).content? t = some v := by simp [content?, h]

@[simp] theorem content?_absent (s t : Ty) : (absent s).content? t = none := rfl

/-! ## §4. Members -/

/-- The members of a record of the given name. -/
def members? (r : String) : Value → Option (List Value)
  | record n members => if n = r then some members else none
  | _ => none

/-- The member at a position of a record, if that member is readable. -/
def member? (σ : Schema) (r : String) (i : Nat) (v : Value) : Option Value := do
  let members ← v.members? r
  let field ← (σ.fields r)[i]?
  if field.readable then members[i]? else none

/-- Replace the member at a position, whatever is there. -/
def setMember (v : Value) (i : Nat) (new : Value) : Value :=
  match v with
  | record n members => record n (members.set i new)
  | v => v

/-- **Assignment** to a member of the given type: a value of another type is
refused. -/
def assign? (v : Value) (t : Ty) (i : Nat) (new : Value) : Option Value :=
  if new.type = t then some (v.setMember i new) else none

@[simp] theorem type_setMember (v : Value) (i : Nat) (new : Value) :
    (v.setMember i new).type = v.type := by
  cases v <;> rfl

/-! ## §5. Enumerations -/

/-- The underlying integer of a variant of the given enumeration. -/
def underlying? (σ : Schema) (e : String) : Value → Option Int
  | enum n i => if n = e then some ((σ.enum e).variant i).underlying else none
  | _ => none

/-- The name of a variant of the given enumeration. -/
def variantName? (σ : Schema) (e : String) : Value → Option String
  | enum n i => if n = e then some ((σ.enum e).variant i).name else none
  | _ => none

/-- The first variant with an underlying integer. -/
def ofUnderlying? (σ : Schema) (e : String) (n : Int) : Option Value :=
  ((σ.enum e).ofUnderlying? n).map (enum e)

/-- The first variant with a name. -/
def ofVariantName? (σ : Schema) (e : String) (name : String) : Option Value :=
  ((σ.enum e).ofName? name).map (enum e)

end Value

end RecordMap
