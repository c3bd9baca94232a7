import RecordMap.ConverterTable
import RecordMap.Proofs.Run.Ensures
import RecordMap.Proofs.Typing.Value

/-!
# Sound callbacks

A callback is *sound* when its body gives values of the types it declares, for
well-typed data.  This is all that is asked of the author of a mapping; what the
body computes is left open, and so is whether a fallible one fails.

Running a sound callback keeps the scratch store of the call in order, gives a
value of the declared type, and never fails with a type mismatch.
-/

namespace RecordMap

/-! ## §1. Soundness of bodies -/

/-- A value was not of the type asked for. -/
def MapError.IsTypeMismatch : MapError → Prop
  | .typeMismatch _ => True
  | _ => False

/-- Every value in the store is well-formed. -/
def Scratch.WellFormed (σ : Schema) (s : Scratch) : Prop :=
  ∀ e ∈ s.entries.getD [], e.2.WellFormed σ

/-- A parameter, if there is one, is well-formed. -/
def ParameterWellFormed (σ : Schema) (parameter : Option Value) : Prop :=
  ∀ p ∈ parameter, p.WellFormed σ

/-- Parameter and store are well-formed. -/
def Context.WellFormed (σ : Schema) (c : Context) : Prop :=
  ParameterWellFormed σ c.parameter ∧ c.scratch.WellFormed σ

theorem Scratch.wellFormed_empty (σ : Schema) : ({} : Scratch).WellFormed σ := by
  intro e he
  cases he

/-- A body over the context gives values of a type and keeps the store in order. -/
def SoundInContext (σ : Schema) (t : Ty) (f : Context → Value × Scratch) : Prop :=
  ∀ c, c.WellFormed σ → (f c).1.HasType σ t ∧ (f c).2.WellFormed σ

/-- A converter gives values of its target. -/
def Converter.Sound (σ : Schema) (c : Converter) : Prop :=
  match c.body with
  | .plain f => ∀ v, v.HasType σ c.source → (f v).HasType σ c.target
  | .fallible f => ∀ v out, v.HasType σ c.source → f v = .ok out → out.HasType σ c.target
  | .context f => ∀ v, v.HasType σ c.source → SoundInContext σ c.target (f v)
  | .parameter t f =>
      ∀ v p, v.HasType σ c.source → p.HasType σ t → (f v p).HasType σ c.target

/-- A provider gives values of its declared type, from a source and a destination
record. -/
def Provider.Sound (σ : Schema) (source destination : String) (p : Provider) : Prop :=
  match p.body with
  | .source f => ∀ v, v.HasType σ (.record source) → (f v).HasType σ p.output
  | .destination f => ∀ v d, v.HasType σ (.record source) → d.HasType σ (.record destination) →
      (f v d).HasType σ p.output
  | .parameter t f => ∀ v a, v.HasType σ (.record source) → a.HasType σ t →
      (f v a).HasType σ p.output
  | .context f => ∀ v, v.HasType σ (.record source) → SoundInContext σ p.output (f v)

/-- A hook leaves a destination record. -/
def Hook.Sound (σ : Schema) (source destination : String) (h : Hook) : Prop :=
  match h.body with
  | .plain f => ∀ v d, v.HasType σ (.record source) → d.HasType σ (.record destination) →
      (f v d).HasType σ (.record destination)
  | .parameter t f => ∀ v d a, v.HasType σ (.record source) → d.HasType σ (.record destination) →
      a.HasType σ t → (f v d a).HasType σ (.record destination)
  | .context f => ∀ v d, v.HasType σ (.record source) → d.HasType σ (.record destination) →
      SoundInContext σ (.record destination) (f v d)

/-- A factory makes a destination record. -/
def Factory.Sound (σ : Schema) (source destination : String) (f : Factory) : Prop :=
  match f.body with
  | .source g => ∀ v, v.HasType σ (.record source) → (g v).HasType σ (.record destination)
  | .parameter t g => ∀ v a, v.HasType σ (.record source) → a.HasType σ t →
      (g v a).HasType σ (.record destination)

/-- All converters of a table are sound. -/
def ConverterTable.Sound (σ : Schema) (t : ConverterTable) : Prop := ∀ c ∈ t.entries, c.Sound σ

theorem ConverterTable.Sound.of_get? {σ : Schema} {t : ConverterTable} {a b : Ty} {c : Converter}
    (h : t.Sound σ) (hc : t.get? a b = some c) : c.Sound σ :=
  h c (List.mem_of_find?_eq_some hc)

/-- All values of a table are well-formed. -/
def ValueTable.WellFormed (σ : Schema) (t : ValueTable) : Prop := ∀ v ∈ t.entries, v.WellFormed σ

theorem ValueTable.WellFormed.of_get? {σ : Schema} {t : ValueTable} {ty : Ty} {v : Value}
    (h : t.WellFormed σ) (hv : t.get? ty = some v) : v.HasType σ ty :=
  (h v (List.mem_of_find?_eq_some hv)).hasType (ValueTable.type_of_get? hv)

/-! ## §2. Typed runs -/

variable {ω α β : Type} {σ : Schema} {K : ω → Prop}

/-- The state of a call is in order: its store, and what lies outside of it. -/
def Call.WellFormed (σ : Schema) (K : ω → Prop) (c : Call ω) : Prop :=
  c.scratch.WellFormed σ ∧ K c.trail.outside

/-- **A typed run**: an invariant is kept, the value is of the wanted kind, and
the error, if there is one, is no type mismatch. -/
abbrev Run.Typed {s : Type} (I : s → Prop) (Q : α → Prop) (x : Run s α) : Prop :=
  Run.Ensures I Q (fun e => ¬ e.IsTypeMismatch) x

theorem Call.typed_note (label : Option String) :
    Run.Typed (Call.WellFormed σ K) (fun _ => True) (Call.note label) :=
  .modify fun _ hc => hc

theorem Call.typed_withContext {t : Ty} {parameter : Option Value} {f : Context → Value × Scratch}
    (hp : ParameterWellFormed σ parameter) (hf : SoundInContext σ t f) :
    Run.Typed (Call.WellFormed σ K) (·.HasType σ t) (Call.withContext parameter f) := by
  intro c hc
  obtain ⟨htype, hscratch⟩ := hf { parameter, scratch := c.scratch } ⟨hp, hc.1⟩
  exact ⟨⟨hscratch, hc.2⟩, htype⟩

theorem Call.typed_fetch {parameter : Option Value} (hp : ParameterWellFormed σ parameter)
    (t : Ty) : Run.Typed (Call.WellFormed σ K) (·.HasType σ t) (Call.fetch σ parameter t) := by
  refine .require ?_ fun _ h => h
  intro v hv
  obtain ⟨p, hparam, has⟩ := Option.bind_eq_some_iff.mp hv
  obtain ⟨htype, rfl⟩ := Value.as?_eq_some_iff.mp has
  exact (hp p hparam).hasType htype

theorem Call.typed_onTrail {Q : α → Prop} {x : Run (Trail ω) α}
    (hx : Run.Typed (fun t => K t.outside) Q x) :
    Run.Typed (Call.WellFormed σ K) Q (Call.onTrail x) :=
  hx.zoom (fun _ hc => hc.2) fun _ _ hc ht => ⟨hc.1, ht⟩

/-! ## §3. Running sound callbacks -/

theorem Converter.typed_input {c : Converter} {v : Value} (hv : v.HasType σ c.source) :
    Run.Typed (Call.WellFormed σ K) (·.HasType σ c.source) (c.input σ v) := by
  unfold Converter.input
  rw [hv.as?]
  exact .pure hv

/-- **A sound converter** gives a value of its target. -/
theorem Converter.typed_apply {c : Converter} (hc : c.Sound σ) {parameter : Option Value}
    (hp : ParameterWellFormed σ parameter) {v : Value} (hv : v.HasType σ c.source) :
    Run.Typed (Call.WellFormed σ K) (·.HasType σ c.target) (c.apply σ parameter v) := by
  unfold Converter.Sound at hc
  unfold Converter.apply
  cases hbody : c.body with
  | plain f =>
    rw [hbody] at hc
    exact (typed_input hv).bind fun v hv => (Call.typed_note _).bind fun _ _ => .pure (hc v hv)
  | fallible f =>
    rw [hbody] at hc
    refine (typed_input hv).bind fun v hv => (Call.typed_note _).bind fun _ _ => ?_
    cases hout : f v with
    | ok out => exact .pure (hc v out hv hout)
    | error cause => exact .throw fun h => h
  | context f =>
    rw [hbody] at hc
    refine (typed_input hv).bind fun v hv => (Call.typed_note _).bind fun _ _ => ?_
    exact Call.typed_withContext hp (hc v hv)
  | parameter t f =>
    -- Here the parameter is fetched before the value is looked at.
    rw [hbody] at hc
    refine (Call.typed_fetch hp t).bind fun p hpt => ?_
    refine (typed_input hv).bind fun v hv => (Call.typed_note _).bind fun _ _ => ?_
    exact .pure (hc v p hv hpt)

variable {source destination : String} {parameter : Option Value} {v d : Value}

/-- **A sound provider** gives a value of its declared type. -/
theorem Provider.typed_provide {p : Provider} (hs : p.Sound σ source destination)
    (hp : ParameterWellFormed σ parameter) (hv : v.HasType σ (.record source))
    (hd : d.HasType σ (.record destination)) :
    Run.Typed (Call.WellFormed σ K) (·.HasType σ p.output) (p.provide σ parameter v d) := by
  unfold Provider.Sound at hs
  unfold Provider.provide
  cases hbody : p.body with
  | source f =>
    rw [hbody] at hs
    exact (Call.typed_note _).bind fun _ _ => .pure (hs v hv)
  | destination f =>
    rw [hbody] at hs
    exact (Call.typed_note _).bind fun _ _ => .pure (hs v d hv hd)
  | parameter t f =>
    rw [hbody] at hs
    exact (Call.typed_fetch hp t).bind fun a ha =>
      (Call.typed_note _).bind fun _ _ => .pure (hs v a hv ha)
  | context f =>
    rw [hbody] at hs
    exact (Call.typed_note _).bind fun _ _ => Call.typed_withContext hp (hs v hv)

theorem Condition.typed_holds (c : Condition) (hp : ParameterWellFormed σ parameter) :
    Run.Typed (Call.WellFormed σ K) (fun _ => True) (c.holds σ parameter v) := by
  unfold Condition.holds
  cases c.body with
  | source f => exact (Call.typed_note _).bind fun _ _ => .pure trivial
  | parameter t f =>
    exact (Call.typed_fetch hp t).bind fun _ _ => (Call.typed_note _).bind fun _ _ => .pure trivial

theorem Condition.typed_allHold (cs : List Condition) (hp : ParameterWellFormed σ parameter) :
    Run.Typed (Call.WellFormed σ K) (fun _ => True) (Condition.allHold σ parameter v cs) := by
  induction cs with
  | nil => exact .pure trivial
  | cons c rest ih =>
    refine (c.typed_holds hp).bind fun holds _ => ?_
    cases holds with
    | true => exact ih
    | false => exact .pure trivial

/-- **A sound hook** leaves a destination record. -/
theorem Hook.typed_change {h : Hook} (hs : h.Sound σ source destination)
    (hp : ParameterWellFormed σ parameter) (hv : v.HasType σ (.record source))
    (hd : d.HasType σ (.record destination)) :
    Run.Typed (Call.WellFormed σ K) (·.HasType σ (.record destination))
      (h.change σ parameter v d) := by
  unfold Hook.Sound at hs
  unfold Hook.change
  cases hbody : h.body with
  | plain f =>
    rw [hbody] at hs
    exact (Call.typed_note _).bind fun _ _ => .pure (hs v d hv hd)
  | parameter t f =>
    rw [hbody] at hs
    exact (Call.typed_fetch hp t).bind fun a ha =>
      (Call.typed_note _).bind fun _ _ => .pure (hs v d a hv hd ha)
  | context f =>
    rw [hbody] at hs
    exact (Call.typed_note _).bind fun _ _ => Call.typed_withContext hp (hs v d hv hd)

/-- **A sound factory** makes a destination record. -/
theorem Factory.typed_make {f : Factory} (hs : f.Sound σ source destination)
    (hp : ParameterWellFormed σ parameter) (hv : v.HasType σ (.record source)) :
    Run.Typed (Call.WellFormed σ K) (·.HasType σ (.record destination))
      (f.make σ parameter v) := by
  unfold Factory.Sound at hs
  unfold Factory.make
  cases hbody : f.body with
  | source g =>
    rw [hbody] at hs
    exact (Call.typed_note _).bind fun _ _ => .pure (hs v hv)
  | parameter t g =>
    rw [hbody] at hs
    exact (Call.typed_fetch hp t).bind fun a ha =>
      (Call.typed_note _).bind fun _ _ => .pure (hs v a hv ha)

end RecordMap
