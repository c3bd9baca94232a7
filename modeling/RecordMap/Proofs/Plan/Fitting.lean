import RecordMap.Proofs.Plan.Problems

/-!
# Members with a constant, with a source, and without

What becomes of a member that is neither ignored nor fed twice depends on where its value comes
from.  A constant is fitted: what comes of it depends on the value and the type of the member
alone (`Config.fitting`), and is the constant of the plan or the reason of the one problem of the
member (`Config.fateOf_constant`).  A member with a source and a conversion ends with its plan, or
with one problem, which is that it nests its own mapping or that its sentinel does not fit
(`Config.fateOf_read`).  Without a conversion that is its problem (`Config.fateOf_unread`), and
without a source it is left out (`Config.excluded_iff_lacking`).
-/

namespace RecordMap

namespace Config

variable {σ : Schema} {c : Config} {d : Defaults} {f : RecordMap.Field}

/-! ## §1. Constants -/

/-- **The fate of a constant**: a plan with the fitted value, or one problem with the reason why
it does not fit. -/
theorem fateOf_constant (h : c.Heeds f.name) {v : Value}
    (hconstant : c.constant? d (c.origin? f.name) f.type = some v) (i : Nat) :
    (∀ w, (c.fitting σ d f.type v).1 = .ok w →
        (c.fateOf σ d i f).1 = .planned (c.plan i f (.constant, .constant w)) ∧
          (c.fateOf σ d i f).2.problems = []) ∧
      ∀ reason, (c.fitting σ d f.type v).1 = .error reason →
        (c.fateOf σ d i f).1 = .rejected ∧
          (c.fateOf σ d i f).2.problems = [.constantConversion f.name reason] := by
  have hset : c.constant? d (c.origin? f.name) f.type ≠ none := by simp [hconstant]
  obtain ⟨fate, fs, j, hfate, hcomes⟩ := comes_fateOf (σ := σ) (c := c) (d := d) i f
  rw [hfate]
  unfold Notes.problems
  cases hcomes with
  | ignored unheeded => exact absurd unheeded (by simp [h.heeded])
  | several heeded several => exact absurd h.single (by omega)
  | constant heeds first fits =>
    cases hconstant.symm.trans first
    rw [fits]
    refine ⟨?_, nofun⟩
    intro w hw
    cases hw
    exact ⟨rfl, Finding.problems_ofTypes _⟩
  | read heeds unset source spares guards => exact absurd unset hset
  | excluded heeds lacking => exact absurd lacking.1 hset
  | rejected heeds before rejects =>
    cases rejects with
    | constant first misfits =>
      cases hconstant.symm.trans first
      rw [misfits]
      refine ⟨nofun, ?_⟩
      intro reason hreason
      cases hreason
      exact ⟨rfl, by simp [before, Finding.problem?]⟩
    | unknown unset _ _ => exact absurd unset hset
    | unconverted unset _ _ => exact absurd unset hset
    | own unset _ _ => exact absurd unset hset
    | sentinel unset _ _ _ _ => exact absurd unset hset

/-! ## §2. Members that are read -/

section Read

variable (h : c.Heeds f.name) (hconstant : c.constant? d (c.origin? f.name) f.type = none)

include h hconstant

/-- **The fate of a member with a source**: it is rejected if the conversion nests the mapping
itself.  If not it has its plan, or a sentinel that does not fit. -/
theorem fateOf_read {a : Accessor} {conversion : Conversion}
    (hsource : c.source? σ d f.name f.type (c.origin? f.name) = some (a, conversion)) (i : Nat) :
    (c.pairing ∈ conversion.pairings ∧ (c.fateOf σ d i f).1 = .rejected ∧
        (c.fateOf σ d i f).2.problems =
          [.selfReferentialNesting f.name (c.pairing.name σ)]) ∨
      c.pairing ∉ conversion.pairings ∧
        ((∃ sentinel journal, c.Guards σ d (c.member? f.name) f.type a sentinel journal ∧
            (c.fateOf σ d i f).1 = .planned (c.plan i f
              (readStrategy conversion sentinel, .read a conversion sentinel)) ∧
            (c.fateOf σ d i f).2.problems = []) ∨
          ∃ v reason, c.sentinel? d (c.member? f.name) f.type = some v ∧
            (c.fitting σ d f.type v).1 = .error reason ∧ (c.fateOf σ d i f).1 = .rejected ∧
            (c.fateOf σ d i f).2.problems = [.constantConversion f.name reason]) := by
  obtain ⟨fate, fs, j, hfate, hcomes⟩ := comes_fateOf (σ := σ) (c := c) (d := d) i f
  rw [hfate]
  unfold Notes.problems
  cases hcomes with
  | ignored unheeded => exact absurd unheeded (by simp [h.heeded])
  | several heeded several => exact absurd h.single (by omega)
  | constant heeds first fits => cases hconstant.symm.trans first
  | excluded heeds lacking => cases hsource.symm.trans lacking.source?_eq_none
  | read heeds unset source spares guards =>
    cases hsource.symm.trans source
    exact .inr ⟨spares, .inl ⟨_, _, guards, rfl, by simp⟩⟩
  | @rejected fs x j heeds before rejects =>
    have hproblems : (fs ++ [Finding.problem x]).filterMap Finding.problem? = [x] := by
      simp [before, Finding.problem?]
    -- A path that leads nowhere, or a missing conversion, would leave it without a source.
    cases rejects with
    | constant first misfits => cases hconstant.symm.trans first
    | unknown unset asked missing =>
      rw [source?_eq, accessor?_of_text asked, missing] at hsource
      cases hsource
    | unconverted unset source missing =>
      rw [source?_eq, source, Option.bind_some, missing] at hsource
      cases hsource
    | own unset source nested =>
      cases hsource.symm.trans source
      exact .inl ⟨nested, rfl, hproblems⟩
    | sentinel unset source spares first misfits =>
      cases hsource.symm.trans source
      exact .inr ⟨spares, .inr ⟨_, _, first, congrArg Prod.fst misfits, rfl, hproblems⟩⟩

/-- **The fate of a member with a source** and no sentinel is its plan. -/
theorem fateOf_sourced {a : Accessor} {conversion : Conversion}
    (hsource : c.source? σ d f.name f.type (c.origin? f.name) = some (a, conversion))
    (hspares : c.pairing ∉ conversion.pairings)
    (hunguarded : c.sentinel? d (c.member? f.name) f.type = none) (i : Nat) :
    (c.fateOf σ d i f).1 =
      .planned (c.plan i f (readStrategy conversion none, .read a conversion none)) := by
  rcases fateOf_read h hconstant hsource i with ⟨hown, -⟩ | ⟨-, hplanned | hmisfits⟩
  · exact absurd hown hspares
  · obtain ⟨sentinel, journal, hguards, hfate, -⟩ := hplanned
    cases hguards with
    | sentinel needed first fits => cases hunguarded.symm.trans first
    | unguarded lacking => exact hfate
  · obtain ⟨v, reason, hfirst, -⟩ := hmisfits
    cases hunguarded.symm.trans hfirst

/-- **The fate of a member without a conversion**: that is its one problem. -/
theorem fateOf_unread {a : Accessor}
    (hsource : c.accessor? σ d f.name (c.origin? f.name) = some a)
    (hmissing : c.conversion? d a.type f.type (c.origin? f.name) = none) (i : Nat) :
    (c.fateOf σ d i f).1 = .rejected ∧ (c.fateOf σ d i f).2.problems =
      [.noConversion f.name (σ.name a.type) (σ.name f.type)] := by
  have hunsourced : c.source? σ d f.name f.type (c.origin? f.name) = none := by
    rw [source?_eq, hsource, Option.bind_some, hmissing]
    rfl
  obtain ⟨fate, fs, j, hfate, hcomes⟩ := comes_fateOf (σ := σ) (c := c) (d := d) i f
  rw [hfate]
  unfold Notes.problems
  cases hcomes with
  | ignored unheeded => exact absurd unheeded (by simp [h.heeded])
  | several heeded several => exact absurd h.single (by omega)
  | constant heeds first fits => cases hconstant.symm.trans first
  | excluded heeds lacking => cases hsource.symm.trans lacking.accessor?_eq_none
  | read heeds unset source spares guards => cases hunsourced.symm.trans source
  | rejected heeds before rejects =>
    cases rejects with
    | constant first misfits => cases hconstant.symm.trans first
    | unknown unset asked missing =>
      rw [accessor?_of_text asked, missing] at hsource
      cases hsource
    | own unset source nested => cases hunsourced.symm.trans source
    | sentinel unset source spares first misfits => cases hunsourced.symm.trans source
    | unconverted unset source missing =>
      cases hsource.symm.trans source
      exact ⟨rfl, by simp [before, Finding.problem?]⟩

omit h in
/-- **A member without a source** has no plan. -/
theorem not_planned_of_unsourced
    (hsource : c.source? σ d f.name f.type (c.origin? f.name) = none) (i : Nat) (p : MemberPlan) :
    (c.fateOf σ d i f).1 ≠ .planned p := by
  intro hfate
  obtain ⟨fs, j, -, hcomes⟩ := comes_of_fateOf hfate
  cases hcomes with
  | constant heeds first fits => cases hconstant.symm.trans first
  | read heeds unset source spares guards => cases hsource.symm.trans source

end Read

/-! ## §3. Members that lack a source -/

/-- **A member is left out** just if it is heeded and lacks a source. -/
theorem excluded_iff_lacking {i : Nat} :
    (c.fateOf σ d i f).1 = .excluded ↔ c.Heeds f.name ∧ c.Lacking σ d f := by
  constructor
  · intro hfate
    obtain ⟨fs, j, -, hcomes⟩ := comes_of_fateOf hfate
    cases hcomes with
    | excluded heeds lacking => exact ⟨heeds, lacking⟩
  · intro h
    obtain ⟨hheeds, hlacking⟩ := h
    obtain ⟨fate, fs, j, hfate, hcomes⟩ := comes_fateOf (σ := σ) (c := c) (d := d) i f
    rw [hfate]
    cases hcomes with
    | ignored unheeded => exact absurd unheeded (by simp [hheeds.heeded])
    | several heeded several => exact absurd hheeds.single (by omega)
    | constant heeds first fits => cases hlacking.1.symm.trans first
    | excluded heeds lacking => rfl
    | read heeds unset source spares guards => cases hlacking.source?_eq_none.symm.trans source
    | rejected heeds before rejects =>
      -- Every problem but that of a constant is one of an explicit source, or of what it gives.
      cases rejects with
      | constant first misfits => cases hlacking.1.symm.trans first
      | unknown unset asked missing =>
        rw [hlacking.origin?_eq_none] at asked
        cases asked
      | unconverted unset source missing => cases hlacking.accessor?_eq_none.symm.trans source
      | own unset source nested => cases hlacking.source?_eq_none.symm.trans source
      | sentinel unset source spares first misfits =>
        cases hlacking.source?_eq_none.symm.trans source

end Config

end RecordMap
