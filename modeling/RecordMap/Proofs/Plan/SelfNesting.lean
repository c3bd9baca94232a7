import RecordMap.Proofs.Plan.Fitting
import RecordMap.Proofs.Plan.Independent

/-!
# Mappings that nest themselves

A mapping in which a member is read through a conversion that leads to the coordinates of the
mapping itself is not resolved: each such member is a problem, and no other member is reported as
one (`Config.selfReferential_iff`).  So no plan nests its own coordinates
(`Config.Resolved.ne_pairing`).
-/

namespace RecordMap

namespace Config

variable {σ : Schema} {c : Config} {d : Defaults} {session : Session}

/-- **A member that nests its own mapping** has the problem found in its search. -/
theorem selfReferential_of_nestsItself {f : RecordMap.Field} (h : c.NestsItself σ d f) (i : Nat) :
    .selfReferentialNesting f.name (c.pairing.name σ) ∈ (c.fateOf σ d i f).2.problems := by
  obtain ⟨hheeded, hsingle, hconstant, a, conversion, hsource, hown⟩ := h
  rcases fateOf_read ⟨hheeded, hsingle⟩ hconstant hsource i with ⟨-, -, hproblems⟩ | ⟨hspares, -⟩
  · rw [hproblems]
    exact List.mem_singleton.mpr rfl
  · exact absurd hown hspares

/-- **The members reported as nesting their own mapping** are those that do. -/
theorem selfReferential_iff (hfresh : session.diagnostics = []) {member pair : String} :
    .selfReferentialNesting member pair ∈ (c.resolve σ d session).diagnostics ↔
      pair = c.pairing.name σ ∧ ∃ t ∈ c.targets σ, t.1.name = member ∧ c.NestsItself σ d t.1 := by
  have hsearched : ∀ m, c.problem? σ m ≠ some (.selfReferentialNesting member pair) := by
    intro m hm
    rcases problem?_cases hm with h | h
    · cases h
    · cases h
  constructor
  · intro h
    obtain ⟨t, ht, hx⟩ := (found_iff hfresh rfl hsearched).mp h
    obtain ⟨htarget, hname⟩ := List.mem_filter.mp ht
    obtain ⟨-, hheeds, j, hrejects⟩ := rejects_of_problem hx
    cases hrejects with
    | own unset source nested =>
      exact ⟨rfl, t, htarget, rfl, hheeds.heeded, hheeds.single, unset, _, _, source, nested⟩
  · intro h
    obtain ⟨rfl, t, ht, rfl, hnests⟩ := h
    exact (reported_resolve ht).1 _ (selfReferential_of_nestsItself hnests t.2)

/-- **No member of a plan nests the coordinates of the plan.** -/
theorem Resolved.ne_pairing {spec : Specification} (h : c.Resolved σ d spec) {i : Nat}
    {p : Pairing} (hnests : spec.NestsAt i p) : p ≠ c.pairing := by
  obtain ⟨plan, hplan, -, a, conversion, sentinel, hread, hmem⟩ := hnests
  obtain ⟨k, f, -, hfate⟩ := h.planned plan hplan
  obtain ⟨fs, j, -, hcomes⟩ := comes_of_fateOf hfate
  intro hp
  rw [hp] at hmem
  cases hcomes with
  | constant heeds first fits => cases hread
  | read heeds unset source spares guards =>
    cases hread
    exact spares hmem

end Config

end RecordMap
