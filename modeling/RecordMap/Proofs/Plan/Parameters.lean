import RecordMap.Proofs.Plan.Ledger

/-!
# Declared parameters

Callbacks of a mapping may declare an auxiliary parameter.  The plan of a mapping
keeps some of its callbacks, and `Specification.parameters` lists the types that
those declare.

The search for a plan notes each of them (`Config.parameters_of_planned`), and the
ledger takes the first type noted for the parameter of the mapping and records a
conflict for any other (`Ledger.Knows`).  So the callbacks of a specification all
declare its parameter (`Config.parameter_of_ok`), and callbacks that declare
different types keep a mapping from being resolved (`Config.resolve_of_conflict`).
-/

namespace RecordMap

/-! ## §1. The types declared in a plan -/

/-- The types declared by the callbacks that produce the value of a member. -/
def Production.parameters : Production → List Ty
  | constant _ => []
  | read a c _ => a.parameter?.toList ++ c.converters.filterMap (·.parameter?)

/-- The types declared by the callbacks of a member. -/
def MemberPlan.parameters (m : MemberPlan) : List Ty :=
  m.conditions.filterMap (·.parameter?) ++ m.production.parameters

/-- The types declared for the creation of a destination. -/
def Creation.parameters : Creation → List Ty
  | custom f => f.parameter?.toList
  | fallback _ => []
  | zero => []

/-- **The types declared by the callbacks of a plan.** -/
def Specification.parameters (s : Specification) : List Ty :=
  s.members.flatMap (·.parameters) ++ s.creation.parameters ++ s.before.filterMap (·.parameter?)
    ++ s.after.filterMap (·.parameter?) ++ s.guards.filterMap (·.parameter?)

/-! ## §2. What a search notes -/

namespace Config

variable {σ : Schema} {c : Config} {d : Defaults} {i : Nat} {f : RecordMap.Field}

/-- **The search for a plan declares the types of the plan**, in order. -/
theorem parameters_of_planned {plan : MemberPlan} (h : (c.fateOf σ d i f).1 = .planned plan) :
    Finding.parameters (c.fateOf σ d i f).2.findings = plan.parameters := by
  obtain ⟨fs, j, hnotes, hcomes⟩ := comes_of_fateOf h
  rw [hnotes]
  cases hcomes with
  | constant heeds first fits =>
    simp [MemberPlan.parameters, Production.parameters, Config.plan, conditions_settings]
  | read heeds unset source spares guards =>
    simp [MemberPlan.parameters, Production.parameters, Config.plan, conditions_settings]

/-- A search that leaves its member out has declared the types of the member's conditions. -/
theorem parameters_of_excluded (h : (c.fateOf σ d i f).1 = .excluded) :
    Finding.parameters (c.fateOf σ d i f).2.findings = c.conditionParameters f.name := by
  obtain ⟨fs, j, hnotes, hcomes⟩ := comes_of_fateOf h
  rw [hnotes]
  cases hcomes with
  | excluded heeds lacking => exact Finding.parameters_ofTypes _

end Config

/-! ## §3. What the ledger knows -/

namespace Ledger

variable {σ : Schema}

/-- **The ledger knows a type**: it is the first one declared, or its conflict with the
first one has been recorded. -/
def Knows (σ : Schema) (l : Ledger) (t : Ty) : Prop :=
  ∃ u, l.first = some u ∧
    (u = t ∨ .conflictingParameterTypes (σ.name u) (σ.name t) ∈ l.problems)

/-- Every type reported is one the ledger knows. -/
def Faithful (σ : Schema) (l : Ledger) : Prop := ∀ t ∈ l.reported, l.Knows σ t

/-- **One ledger continues another**: the first type stays, problems are only added,
and what is reported is known. -/
structure Continues (σ : Schema) (l l' : Ledger) : Prop where
  first : ∀ u, l.first = some u → l'.first = some u
  problems : l.problems ⊆ l'.problems
  faithful : l.Faithful σ → l'.Faithful σ

theorem Knows.mono {l l' : Ledger} (h : Continues σ l l') {t : Ty} (ht : l.Knows σ t) :
    l'.Knows σ t := by
  obtain ⟨u, hu, ht⟩ := ht
  refine ⟨u, h.first u hu, ?_⟩
  rcases ht with rfl | hmem
  · exact .inl rfl
  · exact .inr (h.problems hmem)

theorem Continues.refl (l : Ledger) : Continues σ l l :=
  ⟨fun _ h => h, List.Subset.refl _, id⟩

theorem Continues.trans {l m n : Ledger} (h : Continues σ l m) (k : Continues σ m n) :
    Continues σ l n :=
  ⟨fun u hu => k.first u (h.first u hu), List.Subset.trans h.problems k.problems,
    fun hl => k.faithful (h.faithful hl)⟩

/-- A step that leaves first and reported types alone. -/
theorem continues_of_same {l l' : Ledger} (hfirst : l'.first = l.first)
    (hreported : l'.reported = l.reported) (hproblems : l.problems ⊆ l'.problems) :
    Continues σ l l' := by
  have hstays : ∀ u, l.first = some u → l'.first = some u := fun u hu => hfirst.trans hu
  refine ⟨hstays, hproblems, ?_⟩
  intro hl t ht
  rw [hreported] at ht
  obtain ⟨u, hu, hknown⟩ := hl t ht
  exact ⟨u, hstays u hu, hknown.imp_right fun hmem => hproblems hmem⟩

theorem continues_report (l : Ledger) (d : Diagnostic) : Continues σ l (l.report d) :=
  continues_of_same rfl rfl (problems_report l d)

/-- Noting a type takes it for the first one, or records its conflict. -/
theorem continues_noteParameter (l : Ledger) (t : Ty) : Continues σ l (l.noteParameter σ t) := by
  have hproblems := problems_noteParameter (σ := σ) l t
  unfold noteParameter at hproblems ⊢
  split
  · rename_i hnone
    refine ⟨fun u hu => ?_, List.Subset.refl _, fun hl s hs => ?_⟩
    · rw [hnone] at hu
      cases hu
    · -- Nothing can have been reported before there was a first type.
      obtain ⟨u, hu, _⟩ := hl s hs
      rw [hnone] at hu
      cases hu
  · rename_i first hfirst
    split
    · exact .refl l
    · rename_i hnew
      rw [hfirst] at hproblems
      dsimp only at hproblems
      rw [if_neg hnew] at hproblems
      refine ⟨fun u hu => hu, hproblems, fun hl s hs => ?_⟩
      rcases List.mem_cons.mp hs with rfl | hold
      · exact ⟨first, hfirst, .inr (mem_report.mpr (.inr rfl))⟩
      · obtain ⟨u, hu, hknown⟩ := hl s hold
        exact ⟨u, hu, hknown.imp_right fun hmem => hproblems hmem⟩

theorem knows_noteParameter {l : Ledger} (hl : l.Faithful σ) (t : Ty) :
    (l.noteParameter σ t).Knows σ t := by
  unfold noteParameter
  split
  · exact ⟨t, rfl, .inl rfl⟩
  · rename_i first hfirst
    split
    · rename_i hold
      rcases hold with rfl | hreported
      · exact ⟨first, hfirst, .inl rfl⟩
      · exact hl t hreported
    · exact ⟨first, hfirst, .inr (mem_report.mpr (.inr rfl))⟩

theorem continues_enter (l : Ledger) (f : Finding) : Continues σ l (l.enter σ f) := by
  cases f with
  | problem d => exact continues_report l d
  | parameter t => exact continues_noteParameter l t
  | converter => exact continues_of_same rfl rfl (List.Subset.refl _)
  | flattened => exact continues_of_same rfl rfl (List.Subset.refl _)

theorem continues_settle (l : Ledger) (fate : Fate) : Continues σ l (l.settle fate) := by
  cases fate <;> exact continues_of_same rfl rfl (List.Subset.refl _)

/-- Steps that each continue the ledger continue it together. -/
theorem continues_foldl {α : Type} {step : Ledger → α → Ledger}
    (hstep : ∀ l a, Continues σ l (step l a)) (as : List α) (l : Ledger) :
    Continues σ l (as.foldl step l) := by
  induction as generalizing l with
  | nil => exact .refl l
  | cons a as ih => exact (hstep l a).trans (ih (step l a))

/-- A type that one of the steps makes known is known in the end. -/
theorem knows_foldl {α : Type} {step : Ledger → α → Ledger} {t : Ty} {a : α}
    (hstep : ∀ l a, Continues σ l (step l a))
    (hknows : ∀ l, l.Faithful σ → (step l a).Knows σ t) {as : List α} (ha : a ∈ as) {l : Ledger}
    (hl : l.Faithful σ) : (as.foldl step l).Knows σ t := by
  induction as generalizing l with
  | nil => cases ha
  | cons b as ih =>
    rcases List.mem_cons.mp ha with rfl | hmem
    · exact (hknows l hl).mono (continues_foldl hstep as _)
    · exact ih hmem ((hstep l b).faithful hl)

theorem continues_enterMember (l : Ledger) (v : Fate × Notes) :
    Continues σ l (l.enterMember σ v) :=
  (continues_foldl continues_enter _ l).trans (continues_settle _ _)

theorem knows_enterMember {l : Ledger} (hl : l.Faithful σ) {v : Fate × Notes} {t : Ty}
    (ht : .parameter t ∈ v.2.findings) : (l.enterMember σ v).Knows σ t := by
  have hnoted : ∀ l : Ledger, l.Faithful σ → (l.enter σ (.parameter t)).Knows σ t :=
    fun l hl => knows_noteParameter hl t
  have hentered : (v.2.findings.foldl (enter σ) l).Knows σ t :=
    knows_foldl continues_enter hnoted ht hl
  exact hentered.mono (continues_settle _ _)

end Ledger

namespace Config

variable {σ : Schema} {c : Config} {d : Defaults} {session : Session}

/-- The ledger knows what the search of a member reports. -/
theorem knows_of_finding {verdicts : List (Fate × Notes)} {v : Fate × Notes} (hv : v ∈ verdicts)
    {t : Ty} (ht : .parameter t ∈ v.2.findings) : (c.entered σ verdicts session).Knows σ t := by
  unfold entered
  have hstart : Ledger.Faithful σ { session } := nofun
  have hreported := (Ledger.continues_foldl (σ := σ) Ledger.continues_report
    (c.members.filterMap (c.problem? σ)) { session }).faithful hstart
  have hentered := Ledger.knows_foldl Ledger.continues_enterMember
    (fun l hl => Ledger.knows_enterMember hl ht) hv hreported
  exact hentered.mono (Ledger.continues_foldl Ledger.continues_noteParameter _ _)

/-- The ledger knows what the callbacks of the mapping as a whole declare. -/
theorem knows_of_mappingParameters {verdicts : List (Fate × Notes)} {t : Ty}
    (ht : t ∈ c.mappingParameters) : (c.entered σ verdicts session).Knows σ t := by
  unfold entered
  have hstart : Ledger.Faithful σ { session } := nofun
  have hreported := (Ledger.continues_foldl (σ := σ) Ledger.continues_report
    (c.members.filterMap (c.problem? σ)) { session }).faithful hstart
  have hmembers := (Ledger.continues_foldl (σ := σ) Ledger.continues_enterMember verdicts
    _).faithful hreported
  exact Ledger.knows_foldl Ledger.continues_noteParameter
    (fun l hl => Ledger.knows_noteParameter hl t) ht hmembers

/-! ## §4. Declared types of a mapping -/

/-- The factory of the mapping declares what the creation of its destinations does. -/
theorem mem_mappingParameters_of_creation {t : Ty} (ht : t ∈ (c.creation d).parameters) :
    t ∈ c.mappingParameters := by
  unfold creation at ht
  cases hfactory : c.factory with
  | some f =>
    rw [hfactory] at ht
    have hmem : t ∈ (c.factory.bind (·.parameter?)).toList := by
      rw [hfactory]
      exact ht
    unfold mappingParameters
    simp [hmem]
  | none =>
    rw [hfactory] at ht
    dsimp only at ht
    split at ht <;> cases ht

/-- A lack of shapes, found last, is one more problem. -/
theorem continues_ledger (verdicts : List (Fate × Notes)) (session : Session) :
    Ledger.Continues σ (c.entered σ verdicts session) (c.ledger σ verdicts session) := by
  unfold ledger
  dsimp only
  split
  · exact Ledger.continues_report _ _
  · exact .refl _

/-- **The ledger knows every type** declared by the callbacks of the plans. -/
theorem knows_of_mem_parameters {parameter : Option Ty} {t : Ty}
    (ht : t ∈ (c.specification d (c.verdicts σ d) parameter).parameters) :
    (c.ledger σ (c.verdicts σ d) session).Knows σ t := by
  refine Ledger.Knows.mono (continues_ledger _ _) ?_
  simp only [Specification.parameters, List.mem_append] at ht
  have hmapping : t ∈ c.mappingParameters →
      (c.entered σ (c.verdicts σ d) session).Knows σ t := knows_of_mappingParameters
  rcases ht with (((hmembers | hcreation) | hbefore) | hafter) | hguards
  · obtain ⟨plan, hplan, ht⟩ := List.mem_flatMap.mp hmembers
    -- Sorting by priority only permutes the plans.
    have hmem := (List.mergeSort_perm _ _).mem_iff.mp hplan
    obtain ⟨v, hv, hfate⟩ := fate_of_mem_plans hmem
    obtain ⟨i, f, _, rfl⟩ := mem_verdicts hv
    rw [← parameters_of_planned hfate] at ht
    exact knows_of_finding hv (Finding.mem_parameters.mp ht)
  · exact hmapping (mem_mappingParameters_of_creation hcreation)
  · exact hmapping (List.mem_append_left _ (List.mem_append_left _ (List.mem_append_right _ hbefore)))
  · exact hmapping (List.mem_append_left _ (List.mem_append_right _ hafter))
  · exact hmapping (List.mem_append_right _ hguards)

/-- **One parameter**: the callbacks of a specification declare its parameter. -/
theorem parameter_of_ok {spec : Specification} (h : (c.resolve σ d session).result = .ok spec)
    {t : Ty} (ht : t ∈ spec.parameters) : spec.parameter = some t := by
  obtain ⟨hnone, rfl⟩ := resolve_ok_iff.mp h
  have hknows : (c.ledger σ (c.verdicts σ d) session).Knows σ t := knows_of_mem_parameters ht
  obtain ⟨u, hu, hknown⟩ := hknows
  rcases hknown with rfl | hconflict
  · exact hu
  · rw [hnone] at hconflict
    cases hconflict

/-- **Callbacks that declare different types** keep the mapping from being resolved:
each type but the first one found is a conflict. -/
theorem resolve_of_conflict {parameter : Option Ty} {t t' : Ty}
    (ht : t ∈ (c.specification d (c.verdicts σ d) parameter).parameters)
    (ht' : t' ∈ (c.specification d (c.verdicts σ d) parameter).parameters) (hne : t ≠ t') :
    ∃ pair ds, (c.resolve σ d session).result = .error (.invalid pair ds) ∧
      ∃ u, (t ≠ u ∨ t' ≠ u) ∧
        ∀ s ∈ (c.specification d (c.verdicts σ d) parameter).parameters, s ≠ u →
          .conflictingParameterTypes (σ.name u) (σ.name s) ∈ ds := by
  have hknows : ∀ s ∈ (c.specification d (c.verdicts σ d) parameter).parameters,
      (c.ledger σ (c.verdicts σ d) session).Knows σ s := fun s hs => knows_of_mem_parameters hs
  obtain ⟨u, hu, _⟩ := hknows t ht
  have hconflict : ∀ s ∈ (c.specification d (c.verdicts σ d) parameter).parameters, s ≠ u →
      .conflictingParameterTypes (σ.name u) (σ.name s) ∈
        (c.ledger σ (c.verdicts σ d) session).problems := by
    intro s hs hsu
    obtain ⟨u', hu', hknown⟩ := hknows s hs
    rw [hu] at hu'
    cases hu'
    rcases hknown with rfl | hmem
    · exact absurd rfl hsu
    · exact hmem
  have hother : t ≠ u ∨ t' ≠ u := by
    by_cases htu : t = u
    · exact .inr fun htu' => hne (htu.trans htu'.symm)
    · exact .inl htu
  -- So there is a problem, and resolving fails with all of them.
  cases hresult : (c.resolve σ d session).result with
  | ok spec =>
    have hnone := (resolve_ok_iff.mp hresult).1
    rw [hnone] at hconflict
    rcases hother with h | h
    · cases hconflict t ht h
    · cases hconflict t' ht' h
  | error e =>
    have he := resolve_error hresult
    subst he
    exact ⟨_, _, rfl, u, hother, hconflict⟩

end Config

end RecordMap
