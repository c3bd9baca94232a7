import RecordMap.Proofs.Plan.Fates
import RecordMap.Proofs.Plan.Resolve

/-!
# The ledger of a mapping

Resolving a configuration enters the verdict on each writable member into a
ledger.  What one verdict adds to the counts is the step lemma here
(`Ledger.tallied_enterMember`); the counts of all verdicts follow by induction over
them (`Config.tallied_ledger`).

Problems are only ever added.  So a problem of the configuration, or one found in
the search of a member, is among those the mapping fails with.
-/

namespace RecordMap

/-! ## §1. Verdicts -/

/-- The treatment a fate stands for, unless the member was rejected. -/
def Fate.treatment? : Fate → Option Treatment
  | ignored => some .ignored
  | excluded => some .excluded
  | rejected => none
  | planned p => some p.production.treatment

theorem Fate.treatment?_eq_excluded_iff {fate : Fate} :
    fate.treatment? = some .excluded ↔ fate = .excluded := by
  cases fate with
  | planned p =>
    have hplanned := p.production.isPlanned_treatment
    constructor
    · intro h
      rw [Option.some.inj h] at hplanned
      cases hplanned
    · intro h
      cases h
  | _ => simp [Fate.treatment?]

/-- How often a fate of the treatment was reached; none counts the rejections. -/
def tally (t : Option Treatment) (verdicts : List (Fate × Notes)) : Nat :=
  verdicts.countP fun v => v.1.treatment? = t

/-- The converters linked for all members. -/
def linkedConverters (verdicts : List (Fate × Notes)) : Nat :=
  (verdicts.map fun v => Finding.linked v.2.findings).sum

/-- The count of a strategy. -/
def BuildStats.count (s : BuildStats) : Strategy → Nat
  | .direct => s.direct
  | .viaConverter => s.viaConverter
  | .constant => s.constants
  | .nested => s.nested
  | .guardedBySentinel => s.sentinels

namespace BuildStats

variable (s : BuildStats) (how : Strategy)

@[simp] theorem membersResolved_countMember :
    (s.countMember how).membersResolved = s.membersResolved + 1 := by
  cases how <;> rfl

@[simp] theorem membersIgnored_countMember :
    (s.countMember how).membersIgnored = s.membersIgnored := by
  cases how <;> rfl

@[simp] theorem membersExcluded_countMember :
    (s.countMember how).membersExcluded = s.membersExcluded := by
  cases how <;> rfl

@[simp] theorem convertersLinked_countMember :
    (s.countMember how).convertersLinked = s.convertersLinked := by
  cases how <;> rfl

/-- A member counts for its own strategy only. -/
theorem count_countMember (k : Strategy) :
    (s.countMember how).count k = s.count k + if how = k then 1 else 0 := by
  cases how <;> cases k <;> rfl

end BuildStats

/-- The counts of one session differ from those before by the verdicts. -/
structure Tallied (before : BuildStats) (verdicts : List (Fate × Notes)) (after : BuildStats) :
    Prop where
  resolved : after.membersResolved = before.membersResolved + (Config.plans verdicts).length
  strategies : ∀ s, after.count s =
    before.count s + (Config.plans verdicts).countP fun p => p.strategy = s
  ignored : after.membersIgnored = before.membersIgnored + tally (some .ignored) verdicts
  excluded : after.membersExcluded = before.membersExcluded + tally (some .excluded) verdicts
  linked : after.convertersLinked = before.convertersLinked + linkedConverters verdicts

theorem Config.plans_append (vs ws : List (Fate × Notes)) :
    plans (vs ++ ws) = plans vs ++ plans ws := List.filterMap_append

theorem tally_append (t : Option Treatment) (vs ws : List (Fate × Notes)) :
    tally t (vs ++ ws) = tally t vs + tally t ws := List.countP_append

/-- Planned members are neither ignored nor excluded. -/
theorem tally_planned (p : MemberPlan) (notes : Notes) {t : Treatment} (h : t.isPlanned = false) :
    tally (some t) [(.planned p, notes)] = 0 := by
  unfold tally Fate.treatment?
  rw [List.countP_singleton, if_neg]
  intro heq
  rw [← Option.some.inj (of_decide_eq_true heq), Production.isPlanned_treatment] at h
  cases h

theorem linkedConverters_append (vs ws : List (Fate × Notes)) :
    linkedConverters (vs ++ ws) = linkedConverters vs + linkedConverters ws := by
  unfold linkedConverters
  rw [List.map_append, List.sum_append]

/-- Verdicts entered one after another add up. -/
theorem Tallied.trans {a b c : BuildStats} {vs ws : List (Fate × Notes)} (h : Tallied a vs b)
    (h' : Tallied b ws c) : Tallied a (vs ++ ws) c where
  resolved := by
    rw [h'.resolved, h.resolved, Config.plans_append, List.length_append, Nat.add_assoc]
  strategies s := by
    rw [h'.strategies, h.strategies, Config.plans_append, List.countP_append, Nat.add_assoc]
  ignored := by rw [h'.ignored, h.ignored, tally_append, Nat.add_assoc]
  excluded := by rw [h'.excluded, h.excluded, tally_append, Nat.add_assoc]
  linked := by rw [h'.linked, h.linked, linkedConverters_append, Nat.add_assoc]

/-! ## §2. The ledger -/

namespace Ledger

variable {σ : Schema}

theorem stats_report (l : Ledger) (d : Diagnostic) :
    (l.report d).session.stats = l.session.stats := rfl

theorem stats_noteParameter (l : Ledger) (t : Ty) :
    (l.noteParameter σ t).session.stats = l.session.stats := by
  unfold noteParameter
  split
  · rfl
  · split <;> rfl

/-- Findings add to the converters linked and the flattened paths alone. -/
theorem stats_enter (l : Ledger) (f : Finding) :
    ∃ flattened, (l.enter σ f).session.stats = { l.session.stats with
      flattened
      convertersLinked := l.session.stats.convertersLinked + Finding.linked [f] } := by
  cases f with
  | problem d => exact ⟨_, rfl⟩
  | parameter t =>
    refine ⟨l.session.stats.flattened, ?_⟩
    unfold enter
    rw [stats_noteParameter]
    rfl
  | converter => exact ⟨_, rfl⟩
  | flattened => exact ⟨_, rfl⟩

theorem stats_enterAll (l : Ledger) (fs : List Finding) :
    ∃ flattened, (fs.foldl (enter σ) l).session.stats = { l.session.stats with
      flattened
      convertersLinked := l.session.stats.convertersLinked + Finding.linked fs } := by
  induction fs generalizing l with
  | nil => exact ⟨_, rfl⟩
  | cons f fs ih =>
    obtain ⟨n, hone⟩ := stats_enter (σ := σ) l f
    obtain ⟨m, hrest⟩ := ih (l.enter σ f)
    refine ⟨m, ?_⟩
    rw [List.foldl_cons, hrest, hone]
    rw [show f :: fs = [f] ++ fs from rfl, Finding.linked_append, Nat.add_assoc]

/-- **One verdict** adds its own share to the counts. -/
theorem tallied_enterMember (l : Ledger) (v : Fate × Notes) :
    Tallied l.session.stats [v] (l.enterMember σ v).session.stats := by
  obtain ⟨fate, notes⟩ := v
  obtain ⟨flattened, hstats⟩ := stats_enterAll (σ := σ) l notes.findings
  have hlinked : linkedConverters [(fate, notes)] = Finding.linked notes.findings := Nat.add_zero _
  unfold enterMember
  cases fate with
  | ignored =>
    dsimp only [settle, Session.countIgnored]
    rw [hstats]
    exact ⟨rfl, fun s => by cases s <;> rfl, rfl, rfl, by rw [hlinked]⟩
  | excluded =>
    dsimp only [settle, Session.countExcluded]
    rw [hstats]
    exact ⟨rfl, fun s => by cases s <;> rfl, rfl, rfl, by rw [hlinked]⟩
  | rejected =>
    dsimp only [settle]
    rw [hstats]
    exact ⟨rfl, fun s => by cases s <;> rfl, rfl, rfl, by rw [hlinked]⟩
  | planned p =>
    dsimp only [settle, Session.countMember]
    rw [hstats]
    refine ⟨?_, fun s => ?_, ?_, ?_, ?_⟩
    · rw [BuildStats.membersResolved_countMember]
      rfl
    · rw [BuildStats.count_countMember]
      show _ = _ + [p].countP fun p => p.strategy = s
      rw [List.countP_singleton]
      cases s <;> simp [BuildStats.count]
    · rw [BuildStats.membersIgnored_countMember, tally_planned p notes rfl, Nat.add_zero]
    · rw [BuildStats.membersExcluded_countMember, tally_planned p notes rfl, Nat.add_zero]
    · rw [BuildStats.convertersLinked_countMember, hlinked]

/-- **All verdicts** add up. -/
theorem tallied_enterMembers (l : Ledger) (verdicts : List (Fate × Notes)) :
    Tallied l.session.stats verdicts (verdicts.foldl (enterMember σ) l).session.stats := by
  induction verdicts generalizing l with
  | nil => exact ⟨rfl, fun _ => rfl, rfl, rfl, rfl⟩
  | cons v vs ih => exact (tallied_enterMember l v).trans (ih (l.enterMember σ v))

/-- What no step counts, all steps do not. -/
theorem stats_foldl {α : Type} {step : Ledger → α → Ledger}
    (hstep : ∀ l a, (step l a).session.stats = l.session.stats) (as : List α) (l : Ledger) :
    (as.foldl step l).session.stats = l.session.stats := by
  induction as generalizing l with
  | nil => rfl
  | cons a as ih => exact (ih (step l a)).trans (hstep l a)

/-! ## §3. Problems are only added -/

theorem mem_report {l : Ledger} {x d : Diagnostic} :
    x ∈ (l.report d).problems ↔ x ∈ l.problems ∨ x = d := by
  unfold report problems Session.report
  rw [List.mem_append, List.mem_singleton]

theorem problems_report (l : Ledger) (d : Diagnostic) : l.problems ⊆ (l.report d).problems :=
  fun _ hx => mem_report.mpr (.inl hx)

/-- What one step keeps, all steps keep. -/
theorem problems_foldl {α : Type} {step : Ledger → α → Ledger}
    (hstep : ∀ l a, l.problems ⊆ (step l a).problems) (as : List α) (l : Ledger) :
    l.problems ⊆ (as.foldl step l).problems := by
  induction as generalizing l with
  | nil => exact List.Subset.refl _
  | cons a as ih => exact List.Subset.trans (hstep l a) (ih (step l a))

/-- What one of the steps adds is there in the end. -/
theorem mem_problems_foldl {α : Type} {step : Ledger → α → Ledger} {x : Diagnostic} {a : α}
    (hstep : ∀ l a, l.problems ⊆ (step l a).problems) (hadds : ∀ l, x ∈ (step l a).problems)
    {as : List α} (ha : a ∈ as) (l : Ledger) : x ∈ (as.foldl step l).problems := by
  induction as generalizing l with
  | nil => cases ha
  | cons b as ih =>
    rcases List.mem_cons.mp ha with rfl | hmem
    · exact problems_foldl hstep as _ (hadds l)
    · exact ih hmem (step l b)

theorem problems_noteParameter (l : Ledger) (t : Ty) :
    l.problems ⊆ (l.noteParameter σ t).problems := by
  unfold noteParameter
  split
  · exact List.Subset.refl _
  · split
    · exact List.Subset.refl _
    · exact problems_report _ _

theorem problems_enter (l : Ledger) (f : Finding) : l.problems ⊆ (l.enter σ f).problems := by
  cases f with
  | problem d => exact problems_report l d
  | parameter t => exact problems_noteParameter l t
  | converter => exact List.Subset.refl _
  | flattened => exact List.Subset.refl _

theorem problems_settle (l : Ledger) (fate : Fate) : (l.settle fate).problems = l.problems := by
  cases fate <;> rfl

theorem problems_enterMember (l : Ledger) (v : Fate × Notes) :
    l.problems ⊆ (l.enterMember σ v).problems := by
  unfold enterMember
  rw [problems_settle]
  exact problems_foldl problems_enter _ l

/-- A problem found in the search of a member is recorded. -/
theorem mem_problems_enterMember (l : Ledger) {v : Fate × Notes} {d : Diagnostic}
    (h : .problem d ∈ v.2.findings) : d ∈ (l.enterMember σ v).problems := by
  unfold enterMember
  rw [problems_settle]
  exact mem_problems_foldl problems_enter (fun l => mem_report.mpr (.inr rfl)) h l

end Ledger

namespace Config

/-! ## §4. The ledger of a configuration -/

variable {σ : Schema} {c : Config} {d : Defaults} {session : Session}

/-- The counts of a session are those of the verdicts. -/
theorem tallied_ledger (verdicts : List (Fate × Notes)) (session : Session) :
    Tallied session.stats verdicts (c.ledger σ verdicts session).session.stats := by
  have hentered : Tallied session.stats verdicts (c.entered σ verdicts session).session.stats := by
    unfold entered
    dsimp only
    rw [Ledger.stats_foldl Ledger.stats_noteParameter]
    have hreported := Ledger.stats_foldl Ledger.stats_report
      (c.members.filterMap (c.problem? σ)) { session }
    have hmembers := Ledger.tallied_enterMembers (σ := σ)
      ((c.members.filterMap (c.problem? σ)).foldl Ledger.report { session }) verdicts
    rwa [hreported] at hmembers
  unfold ledger
  dsimp only
  split <;> exact hentered

theorem problems_ledger (verdicts : List (Fate × Notes)) :
    (c.entered σ verdicts session).problems ⊆ (c.ledger σ verdicts session).problems := by
  unfold ledger
  dsimp only
  split
  · exact Ledger.problems_report _ _
  · exact List.Subset.refl _

/-- A problem of the configuration itself is recorded. -/
theorem mem_problems_of_problem? {m : MemberConfig} {x : Diagnostic} (hm : m ∈ c.members)
    (hx : c.problem? σ m = some x) (verdicts : List (Fate × Notes)) :
    x ∈ (c.ledger σ verdicts session).problems := by
  refine problems_ledger verdicts ?_
  unfold entered
  refine Ledger.problems_foldl Ledger.problems_noteParameter _ _ ?_
  refine Ledger.problems_foldl Ledger.problems_enterMember _ _ ?_
  exact Ledger.mem_problems_foldl Ledger.problems_report
    (fun l => Ledger.mem_report.mpr (.inr rfl)) (List.mem_filterMap.mpr ⟨m, hm, hx⟩) _

/-- A problem found in the search of a member is recorded. -/
theorem mem_problems_of_finding {verdicts : List (Fate × Notes)} {v : Fate × Notes}
    {x : Diagnostic} (hv : v ∈ verdicts) (hx : .problem x ∈ v.2.findings) :
    x ∈ (c.ledger σ verdicts session).problems := by
  refine problems_ledger verdicts ?_
  unfold entered
  refine Ledger.problems_foldl Ledger.problems_noteParameter _ _ ?_
  exact Ledger.mem_problems_foldl Ledger.problems_enterMember
    (fun l => Ledger.mem_problems_enterMember l hx) hv _

end Config

end RecordMap
