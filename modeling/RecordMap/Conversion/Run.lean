import RecordMap.Conversion.Basic
import RecordMap.Scalar

/-!
# Running conversions

A conversion tree is run on a value of its source type.  The result is a value
of the target type, or *absent* when an empty option had to be opened on the
way; what becomes of an absent value is decided by whoever asked, except inside
a sequence, where it becomes the zero of the target's elements.

The nested mappers a tree leads to are not part of it.  They are reached through
a handler that the surroundings supply.
-/

namespace RecordMap

/-- How a conversion reaches the mapper of a pairing: given a record and the
parameter handed on, the record that mapper constructs. -/
abbrev Nesting (ω : Type) := Pairing → Value → Option Value → Run (Trail ω) Value

namespace Conversion

/-- A fault of the primitive table as a map error. -/
def fault (source target : String) (f : ScalarFault) : MapError :=
  .conversion source target f.message

/-- The value of a cast, or the error for it. -/
def castOrFail {s : Type} (source target : Primitive) (v : Value) : Run s Value :=
  match source.cast target v with
  | .ok (some out) => return out
  | .ok none => throw (.typeMismatch source.name)
  | .error f => throw (fault source.name target.name f)

/-- A variant as text or as an integer of the target type. -/
def variantOut {s : Type} (σ : Schema) (e : String) (target : Primitive) (v : Value) :
    Run s Value :=
  if target = .text then do
    let name ← Run.require (v.variantName? σ e) (.typeMismatch "enum")
    return .text name
  else do
    let n ← Run.require (v.underlying? σ e) (.typeMismatch "enum")
    match Scalar.write target (.int n) with
    | .ok out => return out
    | .error f => throw (fault "enum" target.name f)

/-- The integers an underlying value can be. -/
def underlyingRange (n : Int) : Bool := IntType.i64.Holds n

/-- The variant that a text names or an integer stands for. -/
def variantIn {s : Type} (σ : Schema) (source : Primitive) (e : String) (v : Value) :
    Run s Value :=
  if source = .text then
    match v with
    | .text name =>
        Run.require (Value.ofVariantName? σ e name)
          (.conversion source.name "enum" ("no variant named " ++ Text.quote name))
    | _ => throw (.typeMismatch (σ.name (.prim .text)))
  else do
    let scalar ← Run.require (source.read? v) (.typeMismatch source.name)
    match scalar.toInt (.int .i64) with
    | .error f => throw (fault source.name "enum" f)
    | .ok n =>
        Run.require (if underlyingRange n then Value.ofUnderlying? σ e n else none)
          (.conversion source.name "enum" ("no variant with value " ++ Text.ofInteger n))

/-- The variant of the same name in another enumeration. -/
def variantAcross {s : Type} (σ : Schema) (a b : String) (v : Value) : Run s Value := do
  let name ← Run.require (v.variantName? σ a) (.typeMismatch "enum")
  Run.require (Value.ofVariantName? σ b name)
    (.conversion "enum" "enum" ("no variant named " ++ name))

/-- **Running** a conversion.  `parameter` is the parameter of the call, `handedOn`
what nested mappers get of it. -/
def run {ω : Type} (σ : Schema) (parameter handedOn : Option Value) (nest : Nesting ω) :
    Conversion → Value → Run (Call ω) (Option Value)
  | passThrough t, v => some <$> Run.require (v.as? t) (.typeMismatch (σ.name t))
  | converter c, v => some <$> c.apply σ parameter v
  | operator c, v => some <$> c.apply σ parameter v
  | primitive a b, v => some <$> castOrFail a b v
  | fromEnum e b, v => some <$> variantOut σ e b v
  | toEnum a e, v => some <$> variantIn σ a e v
  | enumToEnum a b, v => some <$> variantAcross σ a b v
  | unwrap t next, v =>
      match v.content? t with
      | some inner => run σ parameter handedOn nest next inner
      | none => return none
  | wrap t next, v => do
      match ← run σ parameter handedOn nest next v with
      | some out => some <$> Run.require (out.wrap? t) (.typeMismatch (σ.name t))
      | none => return none
  | wrapSource t next, v => do
      let wrapped ← Run.require (v.wrap? t) (.typeMismatch (σ.name t))
      run σ parameter handedOn nest next wrapped
  | elements a b next, v => do
      let items ← Run.require (v.items? a) (.typeMismatch (σ.name a))
      -- A missing element is a zero, so the sequence keeps its length.
      let out ← items.mapM fun item => do
        return (← run σ parameter handedOn nest next item).getD (Value.zero σ b)
      some <$> Run.require (Value.collect? b out) (.typeMismatch (σ.name b))
  | nested p, v => some <$> Call.onTrail (nest p v handedOn)

end Conversion

end RecordMap
