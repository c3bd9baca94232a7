import RecordMap.Binary.Encoded
import RecordMap.Binary.Rounding
import RecordMap.Text.Integer
import RecordMap.Value

/-!
# Values as plain text

Scripts deal with values as text.  `Value.plain` writes a value of any type;
`Value.ofPlain` makes a value of a given type out of any text.  The second is
total: a text that is no form of the type gives the zero of the type.
-/

namespace RecordMap

namespace Value

/-! ## §1. Writing -/

mutual

/-- **The plain text** of a value.  Characters, texts and foreign values stand as
they are; floating numbers are written by their encoding. -/
def plain (σ : Schema) : Value → String
  | bool b => if b then "true" else "false"
  | char c => String.singleton c
  | int _ n => Text.ofInteger n
  | float t x => t.writeEncoded x
  | text s => s
  | enum e i => ((σ.enum e).variant i).name
  | record r members =>
      let named := List.zipWith (fun f s => f.name ++ "=" ++ s) (σ.fields r) (plainAll σ members)
      "\x7b" ++ ",".intercalate named ++ "\x7d"
  | foreign _ content => content
  | absent _ => "none"
  | present v => "some(" ++ plain σ v ++ ")"
  | seq _ items => "[" ++ ",".intercalate (plainAll σ items) ++ "]"

/-- The plain texts of several values. -/
def plainAll (σ : Schema) : List Value → List String
  | [] => []
  | v :: vs => plain σ v :: plainAll σ vs

end

/-! ## §2. Reading -/

/-- The integer a text denotes, zero if it denotes none. -/
def integerOf (s : String) : Int := (Text.readInteger? s.toList).getD 0

/-- The value of a primitive type a text stands for. -/
def primitiveOf (s : String) : Primitive → Value
  | .bool => bool (s == "true")
  | .char => char (s.toList.head?.getD '\x00')
  | .int t => int t (if t.Holds (integerOf s) then integerOf s else 0)
  | .float t => float t (t.ofInt (integerOf s))
  | .text => text s

/-- **The value of a type a text stands for.**  An option holds, and a sequence
has for its only element, what the text stands for; a record has the text in
every text member. -/
def ofPlain (σ : Schema) (s : String) : Ty → Value
  | .prim p => primitiveOf s p
  | .enum e => (ofVariantName? σ e s).getD (enum e 0)
  | .record r => record r ((σ.fields r).map fun f =>
      if f.type = .prim .text then text s else zero σ f.type)
  | .foreign n => foreign n s
  | .option t => present (ofPlain σ s t)
  | .seq t => seq t [ofPlain σ s t]

theorem type_ofPlain (σ : Schema) (s : String) (t : Ty) : (ofPlain σ s t).type = t := by
  induction t with
  | prim p => cases p <;> rfl
  | enum e =>
      unfold ofPlain ofVariantName?
      cases (σ.enum e).ofName? s <;> rfl
  | record r => rfl
  | foreign n => rfl
  | option t ih => simp [ofPlain, type, ih]
  | seq t _ => rfl

end Value

end RecordMap
