import RecordMap.Proofs.Nesting.Confined
import RecordMap.Proofs.Plan.Absence
import RecordMap.Proofs.Plan.WellFormed

/-!
# Parameter safety

The mapping of a specification is only called with what its callbacks need.  A mapping
that declares a parameter has no shape without one, a parameter of another type is
turned away at the entry, and the callbacks of a plan declare no other type.  So none
of them is ever run without its parameter, as long as no other mapper is nested
(`Config.parameter_safe`).
-/

namespace RecordMap

variable {σ : Schema} {c : Config} {d : Defaults} {session : Session} {spec : Specification}
  {ω : Type} {F : MapError → Prop}

namespace Invocation

/-- The calling shape of an invocation, if it is called by one of the four. -/
def shape? : Invocation → Option Shape
  | update _ _ => some .update
  | construct _ => some .construct
  | updateWith _ _ _ => some .updateWith
  | constructWith _ _ => some .constructWith
  | constructOption _ | constructAny _ _ | updateOption _ _ => none

/-- The auxiliary parameter of an invocation. -/
def parameter? : Invocation → Option Value
  | updateWith _ p _ | constructWith _ p => some p
  | constructAny _ q => q
  | update _ _ | construct _ | updateOption _ _ | constructOption _ => none

end Invocation

/-! ## §1. What the entry lets through -/

/-- **A call that is admitted supplies** every parameter that a callback declares. -/
theorem Config.supplied_of_admitted (h : (c.resolve σ d session).result = .ok spec)
    {i : Invocation} {shape : Shape} (hshape : i.shape? = some shape)
    (hadmitted : (Mapper.mk spec).rejection? σ i = none) :
    ∀ t ∈ spec.parameters, Supplied σ F ((Mapper.mk spec).taken i) t := by
  intro t ht
  have hparameter := parameter_of_ok h ht
  -- A mapping that declares a parameter is not compiled for the plain shapes.
  have hplain : spec.shapes.contains .update = false ∧ spec.shapes.contains .construct = false :=
    (wellFormed_of_ok h).parameterized (by rw [hparameter]; rfl)
  have hlack : ∀ {shape}, spec.shapes.contains shape = false →
      (Mapper.mk spec).lack? σ shape ≠ none := by
    intro shape hshape hnone
    unfold Mapper.lack? Mapper.shapes at hnone
    rw [if_neg (by simp [hshape])] at hnone
    cases hnone
  -- In the others the argument is of the declared type.
  have hfits : ∀ {shape} {p : Value},
      ((Mapper.mk spec).lack? σ shape).or ((Mapper.mk spec).misfit? σ p) = none →
      Supplied σ F (some p) t := by
    intro shape p hnone hmissing
    have hmisfit := (Option.or_eq_none_iff.mp hnone).2
    unfold Mapper.misfit? Mapper.parameter? at hmisfit
    rw [hparameter, Option.bind_some] at hmisfit
    by_cases htype : p.type = t
    · rw [Option.bind_some, Value.as?, if_pos htype] at hmissing
      cases hmissing
    · rw [if_neg htype] at hmisfit
      cases hmisfit
  cases i with
  | update v dest => exact absurd hadmitted (hlack hplain.1)
  | construct v => exact absurd hadmitted (hlack hplain.2)
  | updateWith v p dest => exact hfits hadmitted
  | constructWith v p => exact hfits hadmitted
  | constructOption _ => cases hshape
  | constructAny _ _ => cases hshape
  | updateOption _ _ => cases hshape

/-- A call is turned away for its parameter if the shape is there, and a parameter of
another type is declared. -/
theorem Mapper.rejection?_parameterType_iff (m : Mapper) {i : Invocation} {shape : Shape}
    (hshape : i.shape? = some shape) (name : String) :
    m.rejection? σ i = some (.parameterType name) ↔
      m.shapes.contains shape = true ∧ ∃ p u, i.parameter? = some p ∧ m.spec.parameter = some u ∧
        p.type ≠ u ∧ name = σ.name u := by
  -- The lack of a shape is another error, and comes first.
  have hlack : ∀ shape, m.lack? σ shape ≠ some (.parameterType name) := by
    intro shape h
    unfold lack? missing at h
    split at h <;> cases h
  have hpresent : ∀ shape, m.lack? σ shape = none ↔ m.shapes.contains shape = true := by
    intro shape
    unfold lack?
    split <;> simp_all
  have hmisfit : ∀ p, m.misfit? σ p = some (.parameterType name) ↔
      ∃ u, m.spec.parameter = some u ∧ p.type ≠ u ∧ name = σ.name u := by
    intro p
    unfold misfit? parameter?
    rw [Option.bind_eq_some_iff]
    refine exists_congr fun u => and_congr_right fun _ => ?_
    by_cases htype : p.type = u
    · simp [htype]
    · simp [htype, eq_comm]
  have hwith : ∀ (shape : Shape) (p : Value),
      (m.lack? σ shape).or (m.misfit? σ p) = some (.parameterType name) ↔
        m.shapes.contains shape = true ∧ ∃ q u, some p = some q ∧ m.spec.parameter = some u ∧
          q.type ≠ u ∧ name = σ.name u := by
    intro shape p
    rw [Option.or_eq_some_iff, ← hpresent]
    constructor
    · intro h
      rcases h with h | ⟨hnone, h⟩
      · exact absurd h (hlack shape)
      · obtain ⟨u, hu⟩ := (hmisfit p).mp h
        exact ⟨hnone, p, u, rfl, hu⟩
    · intro h
      obtain ⟨hnone, q, u, hq, hu⟩ := h
      cases hq
      exact .inr ⟨hnone, (hmisfit p).mpr ⟨u, hu⟩⟩
  cases i with
  | update v dest => exact ⟨fun h => absurd h (hlack _), fun ⟨_, p, u, hp, _⟩ => nomatch hp⟩
  | construct v => exact ⟨fun h => absurd h (hlack _), fun ⟨_, p, u, hp, _⟩ => nomatch hp⟩
  | updateWith v p dest =>
    cases hshape
    exact hwith .updateWith p
  | constructWith v p =>
    cases hshape
    exact hwith .constructWith p
  | constructOption _ => cases hshape
  | constructAny _ _ => cases hshape
  | updateOption _ _ => cases hshape

/-! ## §2. Calls -/

/-- **A call of a mapping that nests nothing** fails for its parameter only at its
entry. -/
theorem Config.failure_of_flat (h : (c.resolve σ d session).result = .ok spec)
    (hflat : ∀ i p, ¬ spec.NestsAt i p) (nest : Nat → Nesting ω) {i : Invocation} {shape : Shape}
    (hshape : i.shape? = some shape) (t : Trail ω) {e : MapError}
    (hfailure : ((Mapper.mk spec).invoke σ nest i t).1.failure? = some e) :
    (Mapper.mk spec).rejection? σ i = some e ∨ e.IsOwn := by
  have hnest : ∀ s, i.source? = some s → ∀ j p w, spec.Hands σ s j p w →
      Trail.Confined (fun _ => True)
        (fun e => (Mapper.mk spec).rejection? σ i = some e ∨ e.IsOwn)
        (nest j p w (spec.handedOn ((Mapper.mk spec).taken i))) :=
    fun _ _ j p _ hands => absurd hands.nestsAt (hflat j p)
  have hconfined := (Mapper.mk spec).confined_invoke (fun _ he => .inr he) (fun _ he => .inl he)
    (supplied_of_admitted h hshape) hnest (t := t) trivial
  exact hconfined.1 e hfailure

namespace Config

/-- **Parameter safety.**  Callbacks of the plans of a mapping that declare different
types keep it from being resolved, with the conflict among the problems.  In a
specification all of them declare its parameter.  If it nests nothing, no call in any
of the four shapes ever lacks a parameter, and a call fails for the type of one just if
the shape is compiled, a parameter is declared and the argument is of another type. -/
theorem parameter_safe (σ : Schema) (c : Config) (d : Defaults) (session : Session) :
    (∀ parameter t t', t ∈ (c.specification d (c.verdicts σ d) parameter).parameters →
      t' ∈ (c.specification d (c.verdicts σ d) parameter).parameters → t ≠ t' →
      ∃ pair ds, (c.resolve σ d session).result = .error (.invalid pair ds) ∧
        ∃ u, (t ≠ u ∨ t' ≠ u) ∧
          ∀ s ∈ (c.specification d (c.verdicts σ d) parameter).parameters, s ≠ u →
            .conflictingParameterTypes (σ.name u) (σ.name s) ∈ ds) ∧
    ∀ spec, (c.resolve σ d session).result = .ok spec →
      (∀ t ∈ spec.parameters, spec.parameter = some t) ∧
      ((∀ i p, ¬ spec.NestsAt i p) →
        ∀ (ω : Type) (nest : Nat → Nesting ω) (i : Invocation) (shape : Shape) (t : Trail ω),
          i.shape? = some shape →
          (∀ name, ((Mapper.mk spec).invoke σ nest i t).1.failure? ≠
            some (.parameterMissing name)) ∧
          ∀ name, ((Mapper.mk spec).invoke σ nest i t).1.failure? = some (.parameterType name) ↔
            spec.shapes.contains shape = true ∧
              ∃ p u, i.parameter? = some p ∧ spec.parameter = some u ∧ p.type ≠ u ∧
                name = σ.name u) := by
  refine ⟨fun parameter t t' ht ht' hne => resolve_of_conflict ht ht' hne, ?_⟩
  intro spec h
  refine ⟨fun t ht => parameter_of_ok h ht, ?_⟩
  intro hflat ω nest i shape t hshape
  have hfailure : ∀ e, ((Mapper.mk spec).invoke σ nest i t).1.failure? = some e →
      (Mapper.mk spec).rejection? σ i = some e ∨ e.IsOwn :=
    fun e he => failure_of_flat h hflat nest hshape t he
  constructor
  · intro name he
    rcases hfailure _ he with hrejected | hown
    · -- No call is turned away for want of a parameter.
      exact Mapper.isRefusal_of_rejection hrejected
    · exact hown
  · intro name
    refine Iff.trans ?_ ((Mapper.mk spec).rejection?_parameterType_iff hshape name)
    constructor
    · intro he
      rcases hfailure _ he with hrejected | hown
      · exact hrejected
      · exact hown.elim
    · intro hrejected
      exact Mapper.failure_of_rejection hrejected t

/-- Views of notes for a reader: whoever reads decides on the label and signs. -/
def readerView : Config where
  source := "Note"
  destination := "View"
  members := [{
    name := "label"
    sentinel := some (.text "none")
    conditions := [{ body := .parameter (.prim .text) fun _ _ => true }] }]
  after := [{ body := .parameter (.prim .text) fun _ _ reader => .record "View" [reader] }]

/-- Views for a reader, with a hook for something else. -/
def tornView : Config :=
  { readerView with before := [{ body := .parameter (.prim .bool) fun _ view _ => view }] }

/-- The plan of the label for a reader. -/
def readerLabelPlan : MemberPlan :=
  { labelPlan with conditions := [{ body := .parameter (.prim .text) fun _ _ => true }] }

/-- The specification of views for a reader. -/
def readerSpecification : Specification where
  source := "Note"
  destination := "View"
  members := [readerLabelPlan]
  after := readerView.after
  parameter := some (.prim .text)
  shapes := Shapes.all.withoutPlain

theorem verdicts_readerView : readerView.verdicts noteSchema {} =
    [(.planned readerLabelPlan, { findings := [.parameter (.prim .text)] })] := by
  with_unfolding_all rfl

theorem resolve_readerView : (readerView.resolve noteSchema {} { pair := "" }).result =
    .ok readerSpecification := by
  unfold Config.resolve
  rw [verdicts_readerView]
  with_unfolding_all rfl

theorem parameters_tornView :
    (tornView.specification {} (tornView.verdicts noteSchema {}) none).parameters =
      [.prim .text, .prim .bool, .prim .text] := by
  have hverdicts : tornView.verdicts noteSchema {} =
      [(.planned readerLabelPlan, { findings := [.parameter (.prim .text)] })] := by
    with_unfolding_all rfl
  rw [hverdicts]
  with_unfolding_all rfl

/-- Views for a reader can only be had with a text; a hook that declares a boolean
would tear them apart. -/
theorem parameter_safe_readerView :
    let note : Value := .record "Note" [.absent (.prim .text)]
    let call (p : Value) := (Mapper.mk readerSpecification).invoke noteSchema
      (fun _ => (Conversion.unreachable : Nesting Unit)) (.constructWith note p) { outside := () }
    (readerView.resolve noteSchema {} { pair := "" }).result = .ok readerSpecification ∧
      (∃ pair ds, (tornView.resolve noteSchema {} { pair := "" }).result =
        .error (.invalid pair ds) ∧ ds ≠ []) ∧
      (∀ name, (call (.text "reader")).1.failure? ≠ some (.parameterMissing name)) ∧
      (call (.bool true)).1.failure? = some (.parameterType "Text") := by
  intro note call
  have hsafe := (parameter_safe noteSchema readerView {} { pair := "" }).2 _ resolve_readerView
  have hflat : ∀ i p, ¬ readerSpecification.NestsAt i p := by
    intro i p hnests
    obtain ⟨plan, hplan, _, a, c, s, hread, hp⟩ := hnests
    cases List.mem_singleton.mp hplan
    cases hread
    cases hp
  have hcall := fun p => hsafe.2 hflat Unit (fun _ => Conversion.unreachable)
    (.constructWith note p) .constructWith { outside := () } rfl
  refine ⟨resolve_readerView, ?_, (hcall (.text "reader")).1, ?_⟩
  · have htorn := (parameter_safe noteSchema tornView {} { pair := "" }).1 none (.prim .text)
      (.prim .bool) (by rw [parameters_tornView]; simp) (by rw [parameters_tornView]; simp)
      (by decide)
    obtain ⟨pair, ds, hresult, u, hother, hconflict⟩ := htorn
    refine ⟨pair, ds, hresult, fun hnone => ?_⟩
    rw [parameters_tornView, hnone] at hconflict
    rcases hother with h | h
    · cases hconflict _ (by simp) h
    · cases hconflict _ (by simp) h
  · exact ((hcall (.bool true)).2 "Text").mpr
      ⟨rfl, .bool true, .prim .text, rfl, rfl, by decide, rfl⟩

end Config

end RecordMap
