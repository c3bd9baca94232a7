import RecordMap.Proofs.Plan.Accounting
import RecordMap.Proofs.Plan.WellFormed

/-!
# Which members are planned

Once a mapping has been resolved, a member of the destination is planned unless it is
not writable, the mapping ignores it, or nothing feeds it (`Config.unplanned_iff`): no
member is rejected.  The plans are at distinct places of the destination.
-/

namespace RecordMap

namespace Config

variable {σ : Schema} {c : Config} {d : Defaults} {spec : Specification} {session : Session}

/-- The members of a specification are the plans of its verdicts, in their order. -/
theorem members_perm (h : (c.resolve σ d session).result = .ok spec) :
    spec.members.Perm (plans (c.verdicts σ d)) := by
  rw [(resolve_ok_iff.mp h).2]
  exact List.mergeSort_perm _ _

/-- Plans are those that the searches for the writable members end with. -/
theorem mem_members_iff (h : (c.resolve σ d session).result = .ok spec) {m : MemberPlan} :
    m ∈ spec.members ↔ ∃ t ∈ c.targets σ, (c.fateOf σ d t.2 t.1).1 = .planned m := by
  rw [(members_perm h).mem_iff]
  constructor
  · intro hm
    obtain ⟨v, hv, hfate⟩ := fate_of_mem_plans hm
    obtain ⟨t, ht, rfl⟩ := List.mem_map.mp hv
    exact ⟨t, ht, hfate⟩
  · rintro ⟨t, ht, hfate⟩
    refine List.mem_filterMap.mpr ⟨_, List.mem_map_of_mem ht, ?_⟩
    dsimp only
    rw [hfate]

/-- **A rejected member is blamed** by a problem. -/
theorem blamed_of_rejected {f : RecordMap.Field} {i : Nat} (ht : (f, i) ∈ c.targets σ)
    (h : (c.fateOf σ d i f).1 = .rejected) (session : Session) :
    ∃ x ∈ (c.ledger σ (c.verdicts σ d) session).problems, x.member? = some f.name := by
  obtain ⟨fs, j, hnotes, hcomes⟩ := comes_of_fateOf h
  cases hcomes with
  | several heeded several =>
    -- More than one source is a problem with what is configured.
    obtain ⟨hi, hwritable⟩ := mem_targets.mp ht
    obtain ⟨m, hm, x, hx, hblamed⟩ := problem?_of_several (List.mem_of_getElem? hi) hwritable
      (by simp [heeded]) several
    exact ⟨x, mem_problems_of_problem? hm hx _, hblamed⟩
  | @rejected fs x j heeds before rejects =>
    have hmem : c.fateOf σ d i f ∈ c.verdicts σ d := List.mem_map.mpr ⟨(f, i), ht, rfl⟩
    refine ⟨x, mem_problems_of_finding hmem ?_, rejects.names⟩
    rw [hnotes]
    exact List.mem_append_right fs (List.mem_singleton.mpr rfl)

/-- **The members left out**: those that are not writable, ignored, or excluded for
want of a source. -/
theorem unplanned_iff (h : (c.resolve σ d session).result = .ok spec) {i : Nat}
    {f : RecordMap.Field} (hf : (σ.fields c.destination)[i]? = some f) :
    (∀ m ∈ spec.members, m.declaration ≠ i) ↔
      f.writable = false ∨ (c.fateOf σ d i f).1 = .ignored ∨ (c.fateOf σ d i f).1 = .excluded := by
  constructor
  · intro hunplanned
    cases hwritable : f.writable with
    | false => exact .inl rfl
    | true =>
      have ht : (f, i) ∈ c.targets σ := mem_targets.mpr ⟨hf, hwritable⟩
      cases hfate : (c.fateOf σ d i f).1 with
      | ignored => exact .inr (.inl rfl)
      | excluded => exact .inr (.inr rfl)
      | rejected =>
        obtain ⟨x, hx, -⟩ := blamed_of_rejected ht hfate session
        rw [(resolve_ok_iff.mp h).1] at hx
        cases hx
      | planned m =>
        have hm : m ∈ spec.members := (mem_members_iff h).mpr ⟨(f, i), ht, hfate⟩
        exact absurd (plans_of_fateOf hfate).declaration (hunplanned m hm)
  · intro hleft m hm hi
    obtain ⟨⟨f', i'⟩, ht, hfate⟩ := (mem_members_iff h).mp hm
    obtain ⟨hf', hwritable⟩ := mem_targets.mp ht
    have hplace : i' = i := (plans_of_fateOf hfate).declaration.symm.trans hi
    subst hplace
    rw [hf] at hf'
    cases hf'
    rcases hleft with hsealed | hignored | hexcluded
    · rw [hwritable] at hsealed
      cases hsealed
    · rw [hfate] at hignored
      cases hignored
    · rw [hfate] at hexcluded
      cases hexcluded

/-- No two plans are at one place. -/
theorem distinct_members (h : (c.resolve σ d session).result = .ok spec) :
    spec.members.Pairwise fun p q => p.declaration ≠ q.declaration := by
  have hnodup : (spec.members.map (·.declaration)).Nodup :=
    ((members_perm h).map _).nodup_iff.mpr nodup_declarations
  exact List.pairwise_map.mp hnodup

end Config

end RecordMap
