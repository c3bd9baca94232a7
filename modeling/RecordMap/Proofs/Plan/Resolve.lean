import RecordMap.Plan.Resolve
import RecordMap.Proofs.Plan.Search

/-!
# What a resolved specification says

Once a configuration has been resolved, its specification has one plan for each
writable member whose search ended with one, and takes all else over from the
configuration (`Config.resolved_of_ok`).  Plans keep to their declarations: there
are no two for one member (`Config.Resolved.plan_unique`), and so a member nests
at most one pairing (`Config.Resolved.nestsAt_unique`).
-/

namespace RecordMap

/-- A conversion has at most one leaf, so it nests at most one pairing. -/
theorem Conversion.pairings_unique {c : Conversion} {p q : Pairing} (hp : p ∈ c.pairings)
    (hq : q ∈ c.pairings) : p = q := by
  induction c with
  | nested r => rw [List.mem_singleton.mp hp, List.mem_singleton.mp hq]
  | unwrap _ _ ih => exact ih hp hq
  | wrap _ _ ih => exact ih hp hq
  | wrapSource _ _ ih => exact ih hp hq
  | elements _ _ _ ih => exact ih hp hq
  | _ => cases hp

/-- A conversion that nests has no converter. -/
theorem Conversion.converters_of_pairings {c : Conversion} (h : c.pairings ≠ []) :
    c.converters = [] := by
  induction c with
  | nested _ => rfl
  | unwrap _ _ ih => exact ih h
  | wrap _ _ ih => exact ih h
  | wrapSource _ _ ih => exact ih h
  | elements _ _ _ ih => exact ih h
  | _ => exact absurd rfl h

/-- **The member at a declaration nests a pairing**: it is read through a conversion
that leads to the mapper of the pairing. -/
def Specification.NestsAt (s : Specification) (declaration : Nat) (p : Pairing) : Prop :=
  ∃ plan ∈ s.members, plan.declaration = declaration ∧
    ∃ a conversion sentinel, plan.production = .read a conversion sentinel ∧
      p ∈ conversion.pairings

/-- The problems recorded so far. -/
def Ledger.problems (l : Ledger) : List Diagnostic := l.session.diagnostics

/-- A session ends well just if there was no problem. -/
theorem Session.finish_eq (s : Session) :
    s.finish = if s.diagnostics = [] then (.ok (), s)
      else (.error (.invalid s.pair s.diagnostics), { s with diagnostics := [] }) := by
  unfold finish
  by_cases h : s.diagnostics = []
  · rw [if_pos h, if_pos (by simp [h])]
  · rw [if_neg h, if_neg (by simpa using h)]

namespace Config

/-- **The specification of a configuration.** -/
structure Resolved (σ : Schema) (c : Config) (d : Defaults) (spec : Specification) : Prop where
  source : spec.source = c.source
  destination : spec.destination = c.destination
  profile : spec.profile = c.profile
  planned : ∀ plan ∈ spec.members, ∃ i f, (σ.fields c.destination)[i]? = some f ∧
    (c.fateOf σ d i f).1 = .planned plan
  creation : spec.creation = c.creation d
  before : spec.before = c.before
  after : spec.after = c.after

variable {σ : Schema} {c : Config} {d : Defaults} {spec : Specification}

theorem fate_of_mem_plans {verdicts : List (Fate × Notes)} {plan : MemberPlan}
    (h : plan ∈ plans verdicts) : ∃ v ∈ verdicts, v.1 = .planned plan := by
  unfold plans at h
  obtain ⟨v, hv, hplan⟩ := List.mem_filterMap.mp h
  refine ⟨v, hv, ?_⟩
  dsimp only at hplan
  split at hplan
  · rename_i hfate
    cases hplan
    exact hfate
  · cases hplan

/-- The writable members with their positions. -/
def targets (σ : Schema) (c : Config) : List (RecordMap.Field × Nat) :=
  (σ.fields c.destination).zipIdx.filter (·.1.writable)

theorem mem_targets {f : RecordMap.Field} {i : Nat} :
    (f, i) ∈ c.targets σ ↔ (σ.fields c.destination)[i]? = some f ∧ f.writable = true := by
  unfold targets
  rw [List.mem_filter, List.mem_zipIdx_iff_getElem?]

theorem verdicts_eq : c.verdicts σ d = (c.targets σ).map fun t => c.fateOf σ d t.2 t.1 := rfl

theorem mem_verdicts {v : Fate × Notes} (h : v ∈ c.verdicts σ d) :
    ∃ i f, (σ.fields c.destination)[i]? = some f ∧ v = c.fateOf σ d i f := by
  rw [verdicts_eq] at h
  obtain ⟨⟨f, i⟩, hmem, rfl⟩ := List.mem_map.mp h
  exact ⟨i, f, (mem_targets.mp hmem).1, rfl⟩

/-- A configuration resolves just if its ledger has no problem. -/
theorem resolve_ok_iff {session : Session} : (c.resolve σ d session).result = .ok spec ↔
    (c.ledger σ (c.verdicts σ d) session).problems = [] ∧
      spec = c.specification d (c.verdicts σ d) (c.ledger σ (c.verdicts σ d) session).first := by
  unfold resolve Ledger.problems
  dsimp only
  rw [Session.finish_eq]
  split
  · rename_i hnone
    constructor
    · rintro ⟨⟩
      exact ⟨hnone, rfl⟩
    · rintro ⟨-, rfl⟩
      rfl
  · rename_i hsome
    constructor
    · rintro ⟨⟩
    · rintro ⟨hnone, -⟩
      exact absurd hnone hsome

/-- A mapping that resolves leaves the session as its ledger has it. -/
theorem session_of_ok {session : Session} (h : (c.resolve σ d session).result = .ok spec) :
    (c.resolve σ d session).session = (c.ledger σ (c.verdicts σ d) session).session := by
  have hnone := (resolve_ok_iff.mp h).1
  unfold Ledger.problems at hnone
  unfold resolve
  dsimp only
  rw [Session.finish_eq, if_pos hnone]

/-- A configuration that does not resolve fails with all problems of its ledger. -/
theorem resolve_error {session : Session} {e : BuildError}
    (h : (c.resolve σ d session).result = .error e) :
    e = .invalid (c.ledger σ (c.verdicts σ d) session).session.pair
      (c.ledger σ (c.verdicts σ d) session).problems := by
  unfold resolve at h
  dsimp only at h
  rw [Session.finish_eq] at h
  split at h
  · cases h
  · cases h
    rfl

/-- **A configuration that resolves** has the specification it says. -/
theorem resolved_of_ok {session : Session} (h : (c.resolve σ d session).result = .ok spec) :
    c.Resolved σ d spec := by
  obtain ⟨-, rfl⟩ := resolve_ok_iff.mp h
  refine ⟨rfl, rfl, rfl, ?_, rfl, rfl, rfl⟩
  intro plan hplan
  -- Sorting by priority only permutes the plans.
  have hmem := (List.mergeSort_perm _ _).mem_iff.mp hplan
  obtain ⟨v, hv, hfate⟩ := fate_of_mem_plans hmem
  obtain ⟨i, f, hf, rfl⟩ := mem_verdicts hv
  exact ⟨i, f, hf, hfate⟩

/-- Each plan is one for a member of the destination. -/
theorem Resolved.plans (h : c.Resolved σ d spec) {plan : MemberPlan} (hplan : plan ∈ spec.members) :
    ∃ f, (σ.fields c.destination)[plan.declaration]? = some f ∧
      c.Plans σ d plan.declaration f plan := by
  obtain ⟨i, f, hf, hfate⟩ := h.planned plan hplan
  have hplans := plans_of_fateOf hfate
  have hi := hplans.declaration
  subst hi
  exact ⟨f, hf, hplans⟩

/-- **One plan for a member**: plans at the same declaration are the same. -/
theorem Resolved.plan_unique (h : c.Resolved σ d spec) {p q : MemberPlan} (hp : p ∈ spec.members)
    (hq : q ∈ spec.members) (hpq : p.declaration = q.declaration) : p = q := by
  obtain ⟨i, f, hf, hfate⟩ := h.planned p hp
  obtain ⟨j, g, hg, hfate'⟩ := h.planned q hq
  have hi := (plans_of_fateOf hfate).declaration
  have hj := (plans_of_fateOf hfate').declaration
  -- The declaration of a plan is the position its search was for.
  have hij : i = j := by rw [← hi, ← hj, hpq]
  subst hij
  rw [hf] at hg
  cases hg
  rw [hfate] at hfate'
  cases hfate'
  rfl

/-- **One pairing for a member.** -/
theorem Resolved.nestsAt_unique (h : c.Resolved σ d spec) {declaration : Nat} {p q : Pairing}
    (hp : spec.NestsAt declaration p) (hq : spec.NestsAt declaration q) : p = q := by
  obtain ⟨plan, hplan, hi, a, conversion, sentinel, hread, hmem⟩ := hp
  obtain ⟨plan', hplan', hi', a', conversion', sentinel', hread', hmem'⟩ := hq
  have heq := h.plan_unique hplan hplan' (hi.trans hi'.symm)
  subst heq
  rw [hread] at hread'
  cases hread'
  exact Conversion.pairings_unique hmem hmem'

end Config

end RecordMap
