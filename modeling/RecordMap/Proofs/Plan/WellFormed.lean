import RecordMap.Proofs.Plan.Absence
import RecordMap.Proofs.Plan.Drafts
import RecordMap.Proofs.Plan.Ledger
import RecordMap.Proofs.Synthesis

/-!
# Plans are well-formed

A finished draft has a constant and nothing else, or a source with its conversion;
values in it have the type of the member; and its strategy tells what it has
(`Draft.WellFormed`).  The members of a specification are assigned in strictly
increasing order, and its shapes can be called with the parameter it declares
(`Specification.WellFormed`).

`Config.resolve_wellFormed` says so of every configuration that resolves.  Hence
synthesis skips no member, and compiles a routine for each shape of the
specification and no other.  A call of what it compiles is a call of the mapper.
-/

namespace RecordMap

/-! ## §1. Well-formed drafts -/

/-- **A finished draft.** -/
structure Draft.WellFormed (x : Draft) : Prop where
  constant : x.strategy = .constant ↔ x.constant.isSome = true
  alone : x.constant.isSome = true → x.accessor = none ∧ x.conversion = none
  read : x.constant = none → x.accessor.isSome = true ∧ x.conversion.isSome = true
  constant_type : ∀ v, x.constant = some v → v.type = x.type
  sentinel_type : ∀ v, x.sentinel = some v → v.type = x.type
  guarded : x.sentinel.isSome = true ↔ x.strategy = .guardedBySentinel
  /-- A sentinel is there only where the value can be absent and the member cannot. -/
  flagged : x.sentinel.isSome = true →
    x.type.isNullable = false ∧ (x.nullCheck = true ∨ x.nullCoalescing = true)
  nested : ∀ k, x.conversion = some k → x.sentinel = none →
    (x.strategy = .nested ↔ k.pairings ≠ [])
  direct : ∀ k, x.conversion = some k → x.sentinel = none →
    (x.strategy = .direct ↔ k.isPassThrough = true)
  converted : ∀ k, x.conversion = some k → x.sentinel = none →
    (x.strategy = .viaConverter ↔ k.pairings = [] ∧ k.isPassThrough = false)

/-- A draft with a constant alone, or with a source and its conversion, has a value
source. -/
theorem Draft.WellFormed.isSome_assignment? {x : Draft} (h : x.WellFormed) :
    x.assignment?.isSome = true := by
  unfold assignment? valueSource?
  cases hconstant : x.constant with
  | some v => rfl
  | none =>
    obtain ⟨haccessor, hconversion⟩ := h.read hconstant
    obtain ⟨a, ha⟩ := Option.isSome_iff_exists.mp haccessor
    obtain ⟨k, hk⟩ := Option.isSome_iff_exists.mp hconversion
    rw [ha, hk]
    rfl

/-- **A specification that can be compiled as it is.** -/
structure Specification.WellFormed (s : Specification) : Prop where
  sorted : s.members.Pairwise fun p q =>
    p.order < q.order ∨ p.order = q.order ∧ p.declaration < q.declaration
  members : ∀ p ∈ s.members, p.parts.WellFormed
  callable : s.shapes.isEmpty = false
  parameterized : s.parameter.isSome = true →
    s.shapes.contains .update = false ∧ s.shapes.contains .construct = false

namespace Config

variable {σ : Schema} {c : Config} {d : Defaults} {spec : Specification}

/-! ## §2. Members -/

theorem readStrategy_eq_guarded_iff (k : Conversion) (sentinel : Option Value) :
    readStrategy k sentinel = .guardedBySentinel ↔ sentinel.isSome = true := by
  unfold readStrategy
  split
  · simp [*]
  · split
    · simp [*]
    · split <;> simp [*]

/-- A tree that only copies nests nothing. -/
theorem pairings_of_isPassThrough {k : Conversion} (h : k.isPassThrough = true) :
    k.pairings = [] := by
  induction k with
  | passThrough _ => rfl
  | unwrap _ _ ih => exact ih h
  | wrap _ _ ih => exact ih h
  | _ => cases h

/-- Without a sentinel the strategy is told by the conversion. -/
theorem readStrategy_none (k : Conversion) :
    (readStrategy k none = .nested ↔ k.pairings ≠ []) ∧
      (readStrategy k none = .direct ↔ k.isPassThrough = true) ∧
      (readStrategy k none = .viaConverter ↔ k.pairings = [] ∧ k.isPassThrough = false) := by
  unfold readStrategy
  rw [if_neg (by simp)]
  by_cases hnested : k.isNested = true
  · have hpairings := (Conversion.isNested_iff k).mp hnested
    have hreads : ¬ k.isPassThrough = true := fun h => hpairings (pairings_of_isPassThrough h)
    simp [hnested, hpairings, hreads]
  · have hpairings : k.pairings = [] := by
      by_contra h
      exact hnested ((Conversion.isNested_iff k).mpr h)
    by_cases hcopies : k.isPassThrough = true
    · simp [hnested, hpairings, hcopies]
    · simp [hnested, hpairings, hcopies]

/-- The flags ask for a sentinel where one is needed. -/
theorem flags_of_needsSentinel {p : MemberPlan} {a : Accessor} {k : Conversion}
    {sentinel : Option Value} (hread : p.production = .read a k sentinel)
    (h : needsSentinel a p.type = true) :
    p.type.isNullable = false ∧ (p.nullCheck = true ∨ p.nullCoalescing = true) := by
  unfold needsSentinel at h
  unfold MemberPlan.nullCheck MemberPlan.nullCoalescing
  rw [hread]
  cases a <;> simp_all [Production.accessor?]

/-- The parts of a constant plan. -/
theorem wellFormed_constant {p : MemberPlan} {w : Value} (hconstant : p.production = .constant w)
    (hstrategy : p.strategy = p.production.strategy) (htyped : w.type = p.type) :
    p.parts.WellFormed := by
  obtain ⟨member, type, declaration, order, strategy, conditions, production⟩ := p
  cases hconstant
  cases hstrategy
  exact {
    constant := ⟨fun _ => rfl, fun _ => rfl⟩
    alone := fun _ => ⟨rfl, rfl⟩
    read := fun h => nomatch h
    constant_type := by
      rintro v ⟨⟩
      exact htyped
    sentinel_type := fun _ h => nomatch h
    guarded := ⟨nofun, nofun⟩
    flagged := fun h => nomatch h
    nested := fun _ h => nomatch h
    direct := fun _ h => nomatch h
    converted := fun _ h => nomatch h }

/-- The parts of a plan that reads the source. -/
theorem wellFormed_read {p : MemberPlan} {a : Accessor} {k : Conversion} {sentinel : Option Value}
    (hread : p.production = .read a k sentinel)
    (hstrategy : p.strategy = p.production.strategy)
    (htyped : ∀ v, sentinel = some v → v.type = p.type)
    (hneeded : sentinel.isSome = true → needsSentinel a p.type = true) : p.parts.WellFormed := by
  have hflags := fun h => flags_of_needsSentinel hread (hneeded h)
  have hunguarded := readStrategy_none k
  have hguarded := readStrategy_eq_guarded_iff k sentinel
  have hnever : p.production.strategy ≠ .constant := by
    rw [Ne, strategy_eq_constant_iff, hread]
    exact nofun
  rw [hread] at hnever hstrategy
  have hparts : p.parts.constant = none ∧ p.parts.accessor = some a ∧
      p.parts.conversion = some k ∧ p.parts.sentinel = sentinel := by
    unfold MemberPlan.parts
    rw [hread]
    exact ⟨rfl, rfl, rfl, rfl⟩
  obtain ⟨hconstant, haccessor, hconversion, hsentinel⟩ := hparts
  have hstrategy : p.parts.strategy = readStrategy k sentinel := hstrategy
  constructor
  case constant =>
    rw [hconstant, hstrategy]
    exact ⟨fun h => absurd h hnever, nofun⟩
  case alone =>
    rw [hconstant]
    nofun
  case read =>
    rw [haccessor, hconversion]
    exact fun _ => ⟨rfl, rfl⟩
  case constant_type =>
    rw [hconstant]
    nofun
  case sentinel_type =>
    rw [hsentinel]
    exact htyped
  case guarded =>
    rw [hsentinel, hstrategy]
    exact hguarded.symm
  case flagged =>
    rw [hsentinel]
    exact hflags
  -- Without a sentinel the conversion decides.
  all_goals
    intro k' hk' hnone
    rw [hconversion] at hk'
    rw [hsentinel] at hnone
    cases hk'
    subst hnone
    rw [hstrategy]
  case nested => exact hunguarded.1
  case direct => exact hunguarded.2.1
  case converted => exact hunguarded.2.2

/-- **The parts of a plan are well-formed.** -/
theorem wellFormed_parts {declaration : Nat} {f : RecordMap.Field} {p : MemberPlan}
    (h : (c.fateOf σ d declaration f).1 = .planned p) : p.parts.WellFormed := by
  have hplans := plans_of_fateOf h
  have hstrategy := strategy_of_fateOf h
  have hproduces := hplans.production
  cases hproduction : p.production with
  | constant w =>
    rw [hproduction] at hproduces
    cases hproduces with
    | constant _ fits =>
      exact wellFormed_constant hproduction hstrategy (fits.type_eq.trans hplans.type.symm)
  | read a k sentinel =>
    rw [hproduction] at hproduces
    cases hproduces with
    | read _ guarded =>
      rw [← hplans.type] at guarded
      refine wellFormed_read hproduction hstrategy ?_ ?_
      · rintro v rfl
        cases guarded with
        | sentinel _ _ fits => exact fits.type_eq
      · intro hsome
        cases guarded with
        | sentinel needed _ _ => exact needed
        | unguarded _ => cases hsome

/-! ## §3. The order of assignment -/

/-- Every plan keeps the position of its member. -/
theorem declarations_sublist (targets : List (RecordMap.Field × Nat)) :
    ((plans (targets.map fun t => c.fateOf σ d t.2 t.1)).map (·.declaration)).Sublist
      (targets.map Prod.snd) := by
  induction targets with
  | nil => exact .slnil
  | cons t rest ih =>
    have hcons : plans ((t :: rest).map fun t => c.fateOf σ d t.2 t.1) =
        plans [c.fateOf σ d t.2 t.1] ++ plans (rest.map fun t => c.fateOf σ d t.2 t.1) :=
      plans_append [_] _
    rw [hcons, List.map_append, List.map_cons]
    have hone : ((plans [c.fateOf σ d t.2 t.1]).map (·.declaration)).Sublist [t.2] := by
      cases hfate : (c.fateOf σ d t.2 t.1).1 with
      | planned p =>
        have hplans : plans [c.fateOf σ d t.2 t.1] = [p] := by simp [plans, hfate]
        rw [hplans, List.map_singleton, (plans_of_fateOf hfate).declaration]
      | _ => simp [plans, hfate]
    exact hone.append ih

/-- No two plans are at one position. -/
theorem nodup_declarations : ((plans (c.verdicts σ d)).map (·.declaration)).Nodup := by
  have hpositions : ((c.targets σ).map Prod.snd).Nodup := by
    refine List.Nodup.sublist (List.filter_sublist.map _) ?_
    rw [List.zipIdx_map_snd]
    exact List.nodup_range'
  rw [verdicts_eq]
  exact hpositions.sublist (declarations_sublist (c.targets σ))

/-- **The members are assigned in strictly increasing order.** -/
theorem sorted_plans : ((plans (c.verdicts σ d)).mergeSort MemberPlan.comesBefore).Pairwise
    fun p q => p.order < q.order ∨ p.order = q.order ∧ p.declaration < q.declaration := by
  have hsorted : ((plans (c.verdicts σ d)).mergeSort MemberPlan.comesBefore).Pairwise
      fun p q => MemberPlan.comesBefore p q = true := by
    refine List.pairwise_mergeSort ?_ ?_ _
    · intro p q r hpq hqr
      simp only [MemberPlan.comesBefore, Bool.or_eq_true, Bool.and_eq_true, decide_eq_true_eq]
        at hpq hqr ⊢
      omega
    · intro p q
      simp only [MemberPlan.comesBefore, Bool.or_eq_true, Bool.and_eq_true, decide_eq_true_eq]
      omega
  have hdistinct : ((plans (c.verdicts σ d)).mergeSort MemberPlan.comesBefore).Pairwise
      fun p q => p.declaration ≠ q.declaration := by
    refine List.pairwise_map.mp (((List.mergeSort_perm _ _).map _).nodup_iff.mpr ?_)
    exact nodup_declarations
  refine hsorted.imp₂ ?_ hdistinct
  intro p q hle hne
  simp only [MemberPlan.comesBefore, Bool.or_eq_true, Bool.and_eq_true, decide_eq_true_eq] at hle
  omega

/-! ## §4. Specifications -/

/-- The shapes of a mapping that resolves are not empty. -/
theorem isEmpty_shapesFor {session : Session} {verdicts : List (Fate × Notes)}
    (h : (c.ledger σ verdicts session).problems = []) :
    (c.shapesFor (c.ledger σ verdicts session).first).isEmpty = false := by
  unfold ledger at h ⊢
  dsimp only at h ⊢
  split at h
  · unfold Ledger.report Ledger.problems Session.report at h
    simp at h
  · rename_i hsome
    rw [if_neg hsome]
    simpa using hsome

/-- A parameter rules out the shapes without one. -/
theorem shapesFor_plain {parameter : Option Ty} (h : parameter.isSome = true) :
    (c.shapesFor parameter).contains .update = false ∧
      (c.shapesFor parameter).contains .construct = false := by
  unfold shapesFor
  rw [if_pos h]
  exact ⟨Bool.and_false _, Bool.and_false _⟩

/-- A configuration that resolves has a well-formed specification. -/
theorem wellFormed_of_ok {session : Session} (h : (c.resolve σ d session).result = .ok spec) :
    spec.WellFormed := by
  obtain ⟨hnone, rfl⟩ := resolve_ok_iff.mp h
  constructor
  case sorted => exact sorted_plans
  case members =>
    intro p hp
    obtain ⟨v, hv, hfate⟩ := fate_of_mem_plans ((List.mergeSort_perm _ _).mem_iff.mp hp)
    obtain ⟨i, f, -, rfl⟩ := mem_verdicts hv
    exact wellFormed_parts hfate
  case callable => exact isEmpty_shapesFor hnone
  case parameterized => exact shapesFor_plain

end Config

/-! ## §5. Synthesis -/

variable {ω : Type}

theorem Specification.isSome_routine? {α : Type} (s : Specification) (shape : Shape) (f : α) :
    (s.routine? shape f).isSome = s.shapes.contains shape := by
  unfold routine?
  cases s.shapes.contains shape <;> rfl

/-- A bundle has the shapes of its specification. -/
theorem shapes_synthesize (σ : Schema) (s : Specification) :
    (synthesize (ω := ω) σ s).shapes = s.shapes := by
  ext shape
  cases shape <;> exact s.isSome_routine? _ _

/-- A filter that lets everything through skips nothing. -/
theorem map_eq_map_some {α β : Type} {f : α → Option β} {as : List α}
    (h : ∀ a ∈ as, (f a).isSome = true) : as.map f = (as.filterMap f).map some := by
  induction as with
  | nil => rfl
  | cons a rest ih =>
    obtain ⟨ha, hrest⟩ := List.forall_mem_cons.mp h
    obtain ⟨b, hb⟩ := Option.isSome_iff_exists.mp ha
    rw [List.map_cons, List.filterMap_cons_some hb, List.map_cons, ih hrest, hb]

/-- No member of a well-formed specification is skipped. -/
theorem Specification.WellFormed.assignments {s : Specification} (h : s.WellFormed) :
    s.members.map (fun p => p.parts.assignment?) = s.assignments.map some :=
  map_eq_map_some fun p hp => (h.members p hp).isSome_assignment?

/-- **Plans are well-formed**, for every configuration that resolves, and they are as
the steps of the search filled them in.  So synthesis compiles every planned member,
in order, and the shapes it compiles are those of the specification.  What it compiles
runs as the mapper of the specification does, in every call. -/
theorem Config.resolve_wellFormed {σ : Schema} {c : Config} {d : Defaults} {session : Session}
    {spec : Specification} (h : (c.resolve σ d session).result = .ok spec) :
    spec.WellFormed ∧ spec.members.map (·.parts) = c.drafts σ d ∧
      spec.members.map (fun p => p.parts.assignment?) = spec.assignments.map some ∧
      (synthesize (ω := ω) σ spec).shapes = spec.shapes ∧
      (synthesize (ω := ω) σ spec).RunsAs σ ⟨spec⟩ := by
  have hwellFormed := wellFormed_of_ok h
  refine ⟨hwellFormed, ?_, hwellFormed.assignments, shapes_synthesize σ spec,
    Bundle.runsAs_synthesize σ spec⟩
  rw [(resolve_ok_iff.mp h).2]
  exact drafts_eq

/-- The plan of a label is well-formed, and its two routines are compiled. -/
theorem Config.resolve_wellFormed_noteView :
    (noteView.resolve noteSchema {} { pair := "" }).result =
        .ok { source := "Note", destination := "View", members := [labelPlan] } ∧
      labelPlan.parts.WellFormed ∧
      (synthesize (ω := Unit) noteSchema
        { source := "Note", destination := "View", members := [labelPlan] }).shapes = .all := by
  have h := resolve_noteView ""
  obtain ⟨hwellFormed, -, -, hshapes, -⟩ := Config.resolve_wellFormed (ω := Unit) h
  exact ⟨h, hwellFormed.members labelPlan (List.mem_singleton.mpr rfl), hshapes⟩

end RecordMap
