import RecordMap.Proofs.Plan.Alike
import RecordMap.Proofs.Plan.Problems

/-!
# Members are resolved independently

What is configured for one member says nothing about another.  Take two configurations that are
alike in what all members share, and say the same about one member: the problems that name this
member are the same in both, in the same order, and so are its fate and its plan
(`Config.member_independent`).  All problems come out of one resolution, so putting one member
right neither hides nor brings up a problem of another.
-/

namespace RecordMap

open Diagnostic (named named_append)

namespace Config

variable {σ : Schema} {c c' : Config} {d : Defaults} {session : Session}

/-! ## §1. The problems a mapping fails with -/

/-- **The problems a mapping fails with**; there are none if it resolves. -/
def Resolution.diagnostics (r : Resolution) : List Diagnostic :=
  match r.result with
  | .ok _ => []
  | .error e => e.diagnostics

theorem diagnostics_resolve :
    (c.resolve σ d session).diagnostics = (c.ledger σ (c.verdicts σ d) session).problems := by
  unfold Resolution.diagnostics
  cases hresult : (c.resolve σ d session).result with
  | ok spec => exact (resolve_ok_iff.mp hresult).1.symm
  | error e =>
    rw [resolve_error hresult]
    rfl

/-- What is configured under a name has one of two problems. -/
theorem problem?_cases {m : MemberConfig} {x : Diagnostic} (h : c.problem? σ m = some x) :
    x = .unknownMember m.name ∨ x = .duplicateMapping m.name m.origins.length := by
  unfold problem? at h
  split at h
  · cases h
    exact .inl rfl
  · split at h
    · cases h
      exact .inr rfl
    · cases h

theorem member?_of_problem? {m : MemberConfig} {x : Diagnostic} (h : c.problem? σ m = some x) :
    x.member? = some m.name := by
  rcases problem?_cases h with rfl | rfl
  · rfl
  · rfl

/-- Problems with what is configured under a name are those with the entries of the name. -/
theorem named_problems (member : String) (ms : List MemberConfig) :
    named member (ms.filterMap (c.problem? σ)) =
      (ms.filter (·.name = member)).filterMap (c.problem? σ) := by
  induction ms with
  | nil => rfl
  | cons m ms ih =>
    unfold named at ih ⊢
    rw [List.filterMap_cons, List.filter_cons]
    cases hproblem : c.problem? σ m with
    | none =>
      by_cases hm : m.name = member
      · simp [hm, hproblem, ih]
      · simp [hm, ih]
    | some x =>
      have hnames := member?_of_problem? hproblem
      by_cases hm : m.name = member
      · simp [hm, hnames, hproblem, ih]
      · simp [hm, hnames, ih]

/-! ## §2. Targets of one name -/

/-- The writable members of a name, with their positions. -/
def targetsNamed (σ : Schema) (c : Config) (member : String) : List (RecordMap.Field × Nat) :=
  (c.targets σ).filter (·.1.name = member)

/-- Problems found under a name are those found for the members of the name. -/
theorem named_verdicts (member : String) :
    named member ((c.verdicts σ d).flatMap (·.2.problems)) =
      (c.targetsNamed σ member).flatMap fun t => (c.fateOf σ d t.2 t.1).2.problems := by
  rw [verdicts_eq, List.flatMap_map]
  unfold targetsNamed
  induction c.targets σ with
  | nil => rfl
  | cons t ts ih =>
    have hnames := names_fateOf (σ := σ) (c := c) (d := d) t.2 t.1
    rw [List.flatMap_cons, named_append, ih, List.filter_cons]
    by_cases ht : t.1.name = member
    · have hall : named member (c.fateOf σ d t.2 t.1).2.problems =
          (c.fateOf σ d t.2 t.1).2.problems := by
        refine List.filter_eq_self.mpr ?_
        intro x hx
        simp [hnames x hx, ht]
      simp [ht, hall]
    · have hnone : named member (c.fateOf σ d t.2 t.1).2.problems = [] := by
        refine List.filter_eq_nil_iff.mpr ?_
        intro x hx
        simp [hnames x hx, ht]
      simp [ht, hnone]

/-- The plans for a member are those found for the members of its name. -/
theorem filter_plans (member : String) :
    (plans (c.verdicts σ d)).filter (·.member = member) =
      plans ((c.targetsNamed σ member).map fun t => c.fateOf σ d t.2 t.1) := by
  rw [verdicts_eq]
  unfold targetsNamed
  induction c.targets σ with
  | nil => rfl
  | cons t ts ih =>
    have hone : (plans [c.fateOf σ d t.2 t.1]).filter (·.member = member) =
        if t.1.name = member then plans [c.fateOf σ d t.2 t.1] else [] := by
      cases hfate : (c.fateOf σ d t.2 t.1).1 with
      | planned p =>
        have hp : p.member = t.1.name := (plans_of_fateOf hfate).member
        by_cases ht : t.1.name = member
        · simp [plans, hfate, hp, ht]
        · simp [plans, hfate, hp, ht]
      | _ => simp [plans, hfate]
    rw [List.map_cons, ← List.singleton_append, plans_append, List.filter_append, hone, ih,
      List.filter_cons]
    by_cases ht : t.1.name = member
    · simp only [ht, decide_true, if_true, List.map_cons]
      exact (plans_append [_] _).symm
    · simp [ht]

/-! ## §3. Two configurations -/

namespace Alike

variable (h : c.Alike c') {member : String} (hmember : c.SameAt c' (.member member))

include h

theorem targetsNamed_eq : c.targetsNamed σ member = c'.targetsNamed σ member := by
  unfold targetsNamed targets
  rw [h.destination]

include hmember

theorem fate_of_named {t : RecordMap.Field × Nat} (ht : t ∈ c.targetsNamed σ member) :
    c.fateOf σ d t.2 t.1 = c'.fateOf σ d t.2 t.1 := by
  have hname : t.1.name = member := by simpa using (List.mem_filter.mp ht).2
  rw [← hname] at hmember
  exact h.fateOf_eq hmember t.2

/-- **The problems that name the member** are the same, in the same order. -/
theorem named_diagnostics_eq (session : Session) :
    named member (c.resolve σ d session).diagnostics =
      named member (c'.resolve σ d session).diagnostics := by
  have hproblems : named member (c.members.filterMap (c.problem? σ)) =
      named member (c'.members.filterMap (c'.problem? σ)) := by
    have hentries : c.members.filter (·.name = member) = c'.members.filter (·.name = member) :=
      hmember
    rw [named_problems, named_problems, hentries, h.problem?_eq]
  have hfound : named member ((c.verdicts σ d).flatMap (·.2.problems)) =
      named member ((c'.verdicts σ d).flatMap (·.2.problems)) := by
    rw [named_verdicts, named_verdicts, ← h.targetsNamed_eq]
    refine List.flatMap_congr ?_
    intro t ht
    rw [h.fate_of_named hmember ht]
  rw [diagnostics_resolve, diagnostics_resolve, named_ledger, named_ledger, hproblems, hfound]

/-- **The plan of the member** is the same, if both resolve. -/
theorem filter_members_eq {spec spec' : Specification}
    (hspec : (c.resolve σ d session).result = .ok spec)
    (hspec' : (c'.resolve σ d session).result = .ok spec') :
    spec.members.filter (·.member = member) = spec'.members.filter (·.member = member) := by
  have hplans : (plans (c.verdicts σ d)).filter (·.member = member) =
      (plans (c'.verdicts σ d)).filter (·.member = member) := by
    have hfates : (c.targetsNamed σ member).map (fun t => c.fateOf σ d t.2 t.1) =
        (c.targetsNamed σ member).map (fun t => c'.fateOf σ d t.2 t.1) := by
      refine List.map_congr_left ?_
      intro t ht
      exact h.fate_of_named hmember ht
    rw [filter_plans, filter_plans, ← h.targetsNamed_eq, hfates]
  have hperm : (spec.members.filter (·.member = member)).Perm
      (spec'.members.filter (·.member = member)) := by
    have hleft := (members_perm hspec).filter (·.member = member)
    rw [hplans] at hleft
    exact hleft.trans ((members_perm hspec').filter _).symm
  -- Both are in the order of assignment, which leaves one place for each.
  refine List.Perm.eq_of_pairwise ?_ ((wellFormed_of_ok hspec).sorted.filter _)
    ((wellFormed_of_ok hspec').sorted.filter _) hperm
  intro p q _ _ hpq hqp
  omega

end Alike

/-! ## §4. Settings of other members -/

/-- **Every problem of a member is reported**: those its search finds, and one at least for a
member that is rejected. -/
theorem reported_resolve {t : RecordMap.Field × Nat} (ht : t ∈ c.targets σ) :
    (∀ x ∈ (c.fateOf σ d t.2 t.1).2.problems, x ∈ (c.resolve σ d session).diagnostics) ∧
      ((c.fateOf σ d t.2 t.1).1 = .rejected →
        ∃ x ∈ (c.resolve σ d session).diagnostics, x.member? = some t.1.name) := by
  rw [diagnostics_resolve]
  constructor
  · intro x hx
    have hmem : c.fateOf σ d t.2 t.1 ∈ c.verdicts σ d := List.mem_map.mpr ⟨t, ht, rfl⟩
    exact mem_problems_of_finding hmem (Notes.mem_problems.mp hx)
  · intro hrejected
    exact blamed_of_rejected ht hrejected session

/-- **A problem with a member that only a search can find** is reported just if the search for a
member of the name finds it. -/
theorem found_iff (hfresh : session.diagnostics = []) {member : String} {x : Diagnostic}
    (hnames : x.member? = some member) (hsearched : ∀ m, c.problem? σ m ≠ some x) :
    x ∈ (c.resolve σ d session).diagnostics ↔
      ∃ t ∈ c.targetsNamed σ member, x ∈ (c.fateOf σ d t.2 t.1).2.problems := by
  have hnamed : x ∈ (c.resolve σ d session).diagnostics ↔
      x ∈ named member (c.resolve σ d session).diagnostics := by
    simp [named, hnames]
  rw [hnamed, diagnostics_resolve, named_ledger, hfresh, named_problems, named_verdicts]
  simp only [List.mem_append, List.mem_flatMap]
  constructor
  · rintro ((hbefore | hconfigured) | hfound)
    · cases hbefore
    · obtain ⟨m, -, hm⟩ := List.mem_filterMap.mp hconfigured
      exact absurd hm (hsearched m)
    · exact hfound
  · intro hfound
    exact .inr hfound

/-- **Members are resolved independently.**  Let two lists of settings have the same settings of
one member, and come to the same profile, converters, constants and sentinels by type, and
matcher; all other settings may differ.  Then the problems that name the member are the same
list, the member has the same fate with the same notes, and if both resolve, the same plans.  Each
resolution reports all problems of all its members. -/
theorem member_independent (σ : Schema) (d : Defaults) (source destination : String)
    {ss ss' : List Setting} (member : String)
    (hshared : ∀ slot : Slot, slot.isShared = true →
      (ofSettings source destination ss).SameAt (ofSettings source destination ss') slot)
    (hmember : ss.filter (·.slot = .member member) = ss'.filter (·.slot = .member member))
    (session : Session) :
    let c := ofSettings source destination ss
    let c' := ofSettings source destination ss'
    named member (c.resolve σ d session).diagnostics =
        named member (c'.resolve σ d session).diagnostics ∧
      (∀ i f, f.name = member → c.fateOf σ d i f = c'.fateOf σ d i f) ∧
      (∀ spec spec', (c.resolve σ d session).result = .ok spec →
        (c'.resolve σ d session).result = .ok spec' →
        spec.members.filter (·.member = member) = spec'.members.filter (·.member = member)) ∧
      ∀ t ∈ c.targets σ,
        (∀ x ∈ (c.fateOf σ d t.2 t.1).2.problems, x ∈ (c.resolve σ d session).diagnostics) ∧
        ((c.fateOf σ d t.2 t.1).1 = .rejected →
          ∃ x ∈ (c.resolve σ d session).diagnostics, x.member? = some t.1.name) := by
  intro c c'
  obtain ⟨hsource, hdestination⟩ := source_ofSettings source destination ss
  obtain ⟨hsource', hdestination'⟩ := source_ofSettings source destination ss'
  have halike : c.Alike c' :=
    ⟨hsource.trans hsource'.symm, hdestination.trans hdestination'.symm, hshared⟩
  have hsame : c.SameAt c' (.member member) := sameAt_ofSettings hmember source destination
  refine ⟨halike.named_diagnostics_eq hsame session, ?_, ?_, ?_⟩
  · intro i f hf
    rw [← hf] at hsame
    exact halike.fateOf_eq hsame i
  · intro spec spec' hspec hspec'
    exact halike.filter_members_eq hsame hspec hspec'
  · intro t ht
    exact reported_resolve ht

/-- Settings under which two members of a line have sources that are not there. -/
def misread : List Setting := [.mapPath "id" "number", .mapPath "title" "heading"]

/-- The same with one of the two put right. -/
def misreadTitle : List Setting :=
  [.ignore "id", .mapPath "title" "heading", .order "rest" 1, .shapes .all]

/-- The problem of the title is the same with and without that of the other member. -/
theorem member_independent_title :
    (∀ slot : Slot, slot.isShared = true →
      (ofSettings "Ticket" "Line" misread).SameAt (ofSettings "Ticket" "Line" misreadTitle) slot) ∧
    ((ofSettings "Ticket" "Line" misread).resolve ticketSchema {} { pair := "" }).diagnostics =
      [.unknownSourcePath "id" "number", .unknownSourcePath "title" "heading"] ∧
    named "title"
        ((ofSettings "Ticket" "Line" misreadTitle).resolve ticketSchema {} { pair := "" }).diagnostics =
      [.unknownSourcePath "title" "heading"] := by
  have hshared : ∀ slot : Slot, slot.isShared = true →
      (ofSettings "Ticket" "Line" misread).SameAt (ofSettings "Ticket" "Line" misreadTitle) slot := by
    intro slot hslot
    cases slot with
    | converter _ _ | constantFor _ | sentinelFor _ | matcher | profile => rfl
    | _ => cases hslot
  have hfirst : ((ofSettings "Ticket" "Line" misread).resolve ticketSchema {}
      { pair := "" }).diagnostics =
      [.unknownSourcePath "id" "number", .unknownSourcePath "title" "heading"] := by
    with_unfolding_all rfl
  have h := (member_independent ticketSchema {} "Ticket" "Line" "title" hshared rfl
    { pair := "" }).1
  rw [hfirst] at h
  exact ⟨hshared, hfirst, h.symm⟩

end Config

end RecordMap
