import RecordMap.Proofs.Mapper.Parameter
import RecordMap.Proofs.Plan.Planned

/-!
# Which parameter a mapping requires

`RecordMap.Proofs.Plan.Parameters` shows that the callbacks of a specification
declare no parameter but the one of the mapping.  This module turns to the
converse: who is it that declares the parameter of a mapping?

The search for the plan of a member declares the types of the plan, in order and
no others (`Config.parameters_of_planned`).  A search that ignores its member
declares none.  One that excludes its member for want of a source has declared the
types of the member's conditions by then (`Config.parameters_of_excluded`), although
the conditions are dropped with the member.  So the parameter is declared by a callback
of the specification or by a condition of an excluded member
(`Config.parameter_eq_some_iff`), and a mapping can require a parameter that none of its
callbacks reads.
-/

namespace RecordMap

/-! ## §1. The first type declared -/

namespace Ledger

variable {σ : Schema}

theorem first_noteParameter (l : Ledger) (t : Ty) :
    (l.noteParameter σ t).first = l.first.or (some t) := by
  unfold noteParameter
  split
  · rename_i h
    rw [h]
    rfl
  · rename_i first h
    split
    · rw [h]
      rfl
    · show l.first = _
      rw [h]
      rfl

theorem first_enter (l : Ledger) (f : Finding) :
    (l.enter σ f).first = l.first.or f.parameter?.toList.head? := by
  cases f with
  | parameter t => exact first_noteParameter l t
  | _ => exact (Option.or_none).symm

/-- What a fold notes first: the first type of all that its steps declare. -/
theorem first_foldl {α : Type} {step : Ledger → α → Ledger} {declared : α → List Ty}
    (hstep : ∀ l a, (step l a).first = l.first.or (declared a).head?) (as : List α) (l : Ledger) :
    (as.foldl step l).first = l.first.or (as.flatMap declared).head? := by
  induction as generalizing l with
  | nil => exact (Option.or_none).symm
  | cons a as ih =>
    rw [List.foldl_cons, ih, hstep, List.flatMap_cons, List.head?_append, Option.or_assoc]

theorem first_enterMember (l : Ledger) (v : Fate × Notes) :
    (l.enterMember σ v).first = l.first.or (Finding.parameters v.2.findings).head? := by
  have hsettle : ∀ (l : Ledger) (fate : Fate), (l.settle fate).first = l.first := by
    intro l fate
    cases fate <;> rfl
  have hflat : v.2.findings.flatMap (·.parameter?.toList) =
      Finding.parameters v.2.findings := by
    unfold Finding.parameters
    rw [List.filterMap_eq_flatMap_toList]
  unfold enterMember
  rw [hsettle, first_foldl first_enter, hflat]

end Ledger

namespace Config

variable {σ : Schema} {c : Config} {d : Defaults} {spec : Specification} {session : Session}

/-- The ledger takes the first type that is declared, by a member in declaration order
or by the mapping as a whole. -/
theorem first_ledger (verdicts : List (Fate × Notes)) :
    (c.ledger σ verdicts session).first =
      (verdicts.flatMap (fun v => Finding.parameters v.2.findings) ++
        c.mappingParameters).head? := by
  have hreports : ((c.members.filterMap (c.problem? σ)).foldl Ledger.report
      ({ session } : Ledger)).first = none := by
    have hstep : ∀ (l : Ledger) (x : Diagnostic),
        (l.report x).first = l.first.or ([] : List Ty).head? := fun _ _ => (Option.or_none).symm
    rw [Ledger.first_foldl hstep]
    simp
  have hmapping : c.mappingParameters.flatMap (fun t => [t]) = c.mappingParameters := by
    simp
  have hentered : (c.entered σ verdicts session).first =
      (verdicts.flatMap (fun v => Finding.parameters v.2.findings) ++
        c.mappingParameters).head? := by
    unfold entered
    have hstep : ∀ (l : Ledger) (t : Ty),
        (l.noteParameter σ t).first = l.first.or [t].head? := Ledger.first_noteParameter
    rw [Ledger.first_foldl hstep, Ledger.first_foldl Ledger.first_enterMember, hreports, hmapping,
      Option.none_or, List.head?_append]
  unfold ledger
  dsimp only
  split
  · exact hentered
  · exact hentered

/-! ## §2. The parameter of a mapping -/

/-- The types declared by the conditions of the members that are left out for want of
a source. -/
def excludedParameters (σ : Schema) (c : Config) (d : Defaults) : List Ty :=
  (c.targets σ).flatMap fun t =>
    match (c.fateOf σ d t.2 t.1).1 with
    | .excluded => c.conditionParameters t.1.name
    | _ => []

theorem mem_excludedParameters {t : Ty} : t ∈ c.excludedParameters σ d ↔
    ∃ m ∈ c.targets σ, (c.fateOf σ d m.2 m.1).1 = .excluded ∧
      t ∈ c.conditionParameters m.1.name := by
  unfold excludedParameters
  rw [List.mem_flatMap]
  refine exists_congr fun m => and_congr_right fun _ => ?_
  split
  · rename_i hexcluded
    simp [hexcluded]
  · rename_i hother
    exact ⟨fun h => (by cases h), fun h => absurd h.1 hother⟩

/-- What the mapping as a whole declares, its callbacks declare. -/
theorem mem_parameters_of_mappingParameters (h : (c.resolve σ d session).result = .ok spec)
    {t : Ty} (ht : t ∈ c.mappingParameters) : t ∈ spec.parameters := by
  obtain ⟨-, rfl⟩ := resolve_ok_iff.mp h
  have hcreation : t ∈ (c.factory.bind (·.parameter?)).toList → t ∈ (c.creation d).parameters := by
    unfold creation
    cases c.factory with
    | some f => exact id
    | none => nofun
  unfold mappingParameters at ht
  simp only [List.mem_append] at ht
  simp only [Specification.parameters, List.mem_append]
  rcases ht with ((hfactory | hbefore) | hafter) | hguards
  · exact .inl (.inl (.inl (.inr (hcreation hfactory))))
  · exact .inl (.inl (.inr hbefore))
  · exact .inl (.inr hafter)
  · exact .inr hguards

/-- What the search of a writable member declares is kept with its plan, or belongs to
the conditions of a member that is left out. -/
theorem declared_of_verdict (h : (c.resolve σ d session).result = .ok spec) {v : Fate × Notes}
    (hv : v ∈ c.verdicts σ d) {t : Ty} (ht : t ∈ Finding.parameters v.2.findings) :
    t ∈ spec.parameters ∨ t ∈ c.excludedParameters σ d := by
  rw [verdicts_eq] at hv
  obtain ⟨⟨f, i⟩, hf, rfl⟩ := List.mem_map.mp hv
  dsimp only at ht
  cases hfate : (c.fateOf σ d i f).1 with
  | planned plan =>
    rw [parameters_of_planned hfate] at ht
    have hplan : plan ∈ spec.members := (mem_members_iff h).mpr ⟨(f, i), hf, hfate⟩
    refine .inl ?_
    simp only [Specification.parameters, List.mem_append]
    exact .inl (.inl (.inl (.inl (List.mem_flatMap.mpr ⟨plan, hplan, ht⟩))))
  | excluded =>
    rw [parameters_of_excluded hfate] at ht
    exact .inr (mem_excludedParameters.mpr ⟨(f, i), hf, hfate, ht⟩)
  | ignored =>
    -- An ignored member is not searched at all.
    obtain ⟨fs, j, hnotes, hcomes⟩ := comes_of_fateOf hfate
    rw [hnotes] at ht
    cases hcomes
    cases ht
  | rejected =>
    obtain ⟨x, hx, -⟩ := blamed_of_rejected hf hfate session
    rw [(resolve_ok_iff.mp h).1] at hx
    cases hx

/-- Without a conflict every type that is declared is the parameter. -/
theorem parameter_of_excluded (h : (c.resolve σ d session).result = .ok spec) {t : Ty}
    (ht : t ∈ c.excludedParameters σ d) : spec.parameter = some t := by
  obtain ⟨hnone, rfl⟩ := resolve_ok_iff.mp h
  obtain ⟨⟨f, i⟩, hf, hfate, ht⟩ := mem_excludedParameters.mp ht
  rw [← parameters_of_excluded hfate, Finding.mem_parameters] at ht
  have hv : c.fateOf σ d i f ∈ c.verdicts σ d := List.mem_map.mpr ⟨(f, i), hf, rfl⟩
  have hentered : (c.entered σ (c.verdicts σ d) session).Knows σ t := knows_of_finding hv ht
  obtain ⟨u, hu, hknown⟩ := hentered.mono (continues_ledger _ _)
  rcases hknown with rfl | hconflict
  · exact hu
  · rw [hnone] at hconflict
    cases hconflict

/-- **Who declares the parameter**: a callback of the specification, or a condition of
a member that was left out for want of a source. -/
theorem parameter_eq_some_iff (h : (c.resolve σ d session).result = .ok spec) {t : Ty} :
    spec.parameter = some t ↔ t ∈ spec.parameters ∨ t ∈ c.excludedParameters σ d := by
  constructor
  · intro ht
    have hfirst : (c.ledger σ (c.verdicts σ d) session).first = some t := by
      rw [(resolve_ok_iff.mp h).2] at ht
      exact ht
    rw [first_ledger] at hfirst
    rcases List.mem_append.mp (List.mem_of_head? hfirst) with hmember | hmapping
    · obtain ⟨v, hv, hdeclared⟩ := List.mem_flatMap.mp hmember
      exact declared_of_verdict h hv hdeclared
    · exact .inl (mem_parameters_of_mappingParameters h hmapping)
  · rintro (hkept | hdropped)
    · exact parameter_of_ok h hkept
    · exact parameter_of_excluded h hdropped

theorem shapes_of_ok (h : (c.resolve σ d session).result = .ok spec) :
    spec.shapes = c.shapesFor spec.parameter := by
  rw [(resolve_ok_iff.mp h).2]
  rfl

/-- **When a mapping requires a parameter.**

It does just if a callback of its specification declares one, or a condition of a
member that was left out for want of a source.  Without such conditions a mapping whose
callbacks declare nothing requires nothing, and has all the shapes that were asked for.
With one of them it has no shape without a parameter, whatever its callbacks are.
Members that are ignored do not count. -/
theorem requires_parameter_iff (h : (c.resolve σ d session).result = .ok spec) :
    (∀ t, spec.parameter = some t ↔ t ∈ spec.parameters ∨ t ∈ c.excludedParameters σ d) ∧
    (c.excludedParameters σ d = [] →
      (∀ t, spec.parameter = some t → t ∈ spec.parameters) ∧
      (spec.parameters = [] → spec.shapes = c.shapes)) ∧
    (c.excludedParameters σ d ≠ [] → spec.shapes = c.shapes.withoutPlain) := by
  refine ⟨fun t => parameter_eq_some_iff h, fun hkept => ?_, fun hdropped => ?_⟩
  · have hcallback : ∀ t, spec.parameter = some t → t ∈ spec.parameters := by
      intro t ht
      rcases (parameter_eq_some_iff h).mp ht with hmem | hmem
      · exact hmem
      · rw [hkept] at hmem
        cases hmem
    refine ⟨hcallback, fun hnone => ?_⟩
    rw [shapes_of_ok h]
    cases hparameter : spec.parameter with
    | none => rfl
    | some t =>
      have hmem := hcallback t hparameter
      rw [hnone] at hmem
      cases hmem
  · obtain ⟨t, ht⟩ := List.exists_mem_of_ne_nil _ hdropped
    rw [shapes_of_ok h, (parameter_eq_some_iff h).mpr (.inr ht)]
    rfl

/-- Views for a reader have nothing that is left out. -/
theorem requires_parameter_readerView :
    (readerView.resolve noteSchema {} { pair := "" }).result = .ok readerSpecification ∧
      readerView.excludedParameters noteSchema {} = [] ∧
      .prim .text ∈ readerSpecification.parameters := by
  have hnone : readerView.excludedParameters noteSchema {} = [] := by
    with_unfolding_all rfl
  exact ⟨resolve_readerView, hnone,
    ((requires_parameter_iff resolve_readerView).2.1 hnone).1 (.prim .text) rfl⟩

/-- Pages with a condition on their notes, which nothing in a note feeds. -/
def idlePage : Config where
  source := "Note"
  destination := "Page"
  members := [{
    name := "notes"
    conditions := [{ body := .parameter (.prim .text) fun _ _ => true }] }]

/-- The specification of such pages. -/
def idleSpecification : Specification where
  source := "Note"
  destination := "Page"
  parameter := some (.prim .text)
  shapes := Shapes.all.withoutPlain

/-- **A parameter that no callback reads.**  Nothing is planned for a page, and yet it
can only be made with a text. -/
theorem requires_parameter_idlePage :
    (idlePage.resolve noteSchema {} { pair := "" }).result = .ok idleSpecification ∧
      idleSpecification.parameters = [] ∧ idleSpecification.parameter = some (.prim .text) ∧
      idlePage.shapes = .all ∧ idleSpecification.shapes = Shapes.all.withoutPlain := by
  have hverdicts : idlePage.verdicts noteSchema {} =
      [(.excluded, { findings := [.parameter (.prim .text)] })] := by
    with_unfolding_all rfl
  refine ⟨?_, rfl, rfl, rfl, rfl⟩
  unfold resolve
  rw [hverdicts]
  with_unfolding_all rfl

end Config

end RecordMap
