import RecordMap.Proofs.Plan.Independent

/-!
# Settings on different slots commute

Two lists of settings that agree slot by slot describe configurations that hold the same in every
slot.  They differ in one thing: the order in which members were mentioned first.  On that depends
the order of the problems with what is configured for single members, and nothing else.

So the ledgers of the two are the same but for the order of their problems.  Each step of the
ledger keeps it so (`Ledger.Rearranges`), and so do all steps.  Both configurations resolve to the
same specification, or both fail with the same problems, in some order
(`Config.settings_commute`).
-/

namespace RecordMap

/-! ## §1. Ledgers up to the order of problems -/

namespace Ledger

variable {σ : Schema} {l l' : Ledger}

/-- The ledger with other problems. -/
def withProblems (l : Ledger) (ds : List Diagnostic) : Ledger :=
  { l with session := { l.session with diagnostics := ds } }

/-- **One ledger rearranges another**: it has the same problems in some order, and all else is the
same. -/
def Rearranges (l l' : Ledger) : Prop := ∃ ds, l.problems.Perm ds ∧ l' = l.withProblems ds

theorem Rearranges.report (h : Rearranges l l') (x : Diagnostic) :
    Rearranges (l.report x) (l'.report x) := by
  obtain ⟨ds, hds, rfl⟩ := h
  exact ⟨ds ++ [x], hds.append_right [x], rfl⟩

/-- Which types are conflicts does not depend on the problems there are. -/
theorem Rearranges.noteParameter (h : Rearranges l l') (t : Ty) :
    Rearranges (l.noteParameter σ t) (l'.noteParameter σ t) := by
  obtain ⟨ds, hds, rfl⟩ := h
  obtain ⟨s, first, reported⟩ := l
  unfold Ledger.noteParameter
  cases first with
  | none => exact ⟨ds, hds, rfl⟩
  | some first =>
    dsimp only [withProblems]
    by_cases hknown : first = t ∨ t ∈ reported
    · simp only [hknown, if_true]
      exact ⟨ds, hds, rfl⟩
    · simp only [hknown, if_false]
      exact ⟨_, hds.append_right _, rfl⟩

theorem Rearranges.enter (h : Rearranges l l') (f : Finding) :
    Rearranges (l.enter σ f) (l'.enter σ f) := by
  cases f with
  | problem x => exact h.report x
  | parameter t => exact h.noteParameter t
  | _ =>
    obtain ⟨ds, hds, rfl⟩ := h
    exact ⟨ds, hds, rfl⟩

theorem Rearranges.settle (h : Rearranges l l') (fate : Fate) :
    Rearranges (l.settle fate) (l'.settle fate) := by
  obtain ⟨ds, hds, rfl⟩ := h
  cases fate <;> exact ⟨ds, hds, rfl⟩

/-- What each step keeps, all steps keep. -/
theorem Rearranges.foldl {α : Type} {step : Ledger → α → Ledger}
    (hstep : ∀ {l l'}, Rearranges l l' → ∀ a, Rearranges (step l a) (step l' a))
    (h : Rearranges l l') (as : List α) : Rearranges (as.foldl step l) (as.foldl step l') := by
  induction as generalizing l l' with
  | nil => exact h
  | cons a as ih => exact ih (hstep h a)

theorem Rearranges.enterMember (h : Rearranges l l') (v : Fate × Notes) :
    Rearranges (l.enterMember σ v) (l'.enterMember σ v) :=
  (h.foldl Rearranges.enter v.2.findings).settle v.1

theorem foldl_report (ds : List Diagnostic) (l : Ledger) :
    ds.foldl report l = l.withProblems (l.problems ++ ds) := by
  induction ds generalizing l with
  | nil =>
    rw [List.append_nil]
    rfl
  | cons x ds ih =>
    rw [List.foldl_cons, ih]
    unfold report problems withProblems Session.report
    simp

/-- Problems may be reported in any order. -/
theorem rearranges_reports {ds ds' : List Diagnostic} (h : ds.Perm ds') (l : Ledger) :
    Rearranges (ds.foldl report l) (ds'.foldl report l) := by
  rw [foldl_report, foldl_report]
  exact ⟨l.problems ++ ds', h.append_left _, rfl⟩

end Ledger

namespace Config

variable {σ : Schema} {c c' : Config} {d : Defaults}

/-! ## §2. Configurations with the same slots -/

/-- **The same configuration slot by slot.** -/
structure Same (c c' : Config) : Prop where
  source : c.source = c'.source
  destination : c.destination = c'.destination
  slots : ∀ slot, c.SameAt c' slot

namespace Same

variable (h : c.Same c')

include h

theorem alike : c.Alike c' := ⟨h.source, h.destination, fun slot _ => h.slots slot⟩

theorem verdicts_eq : c.verdicts σ d = c'.verdicts σ d :=
  h.alike.verdicts_eq fun name => h.slots (.member name)

theorem shapesFor_eq : c.shapesFor = c'.shapesFor := by
  have hshapes : c.shapes = c'.shapes := h.slots .shapes
  funext parameter
  unfold shapesFor
  rw [hshapes]

theorem mappingParameters_eq : c.mappingParameters = c'.mappingParameters := by
  have hfactory : c.factory = c'.factory := h.slots .factory
  have hbefore : c.before = c'.before := h.slots .before
  have hafter : c.after = c'.after := h.slots .after
  have hguards : c.guards = c'.guards := h.slots .guards
  unfold mappingParameters
  rw [hfactory, hbefore, hafter, hguards]

theorem specification_eq (verdicts : List (Fate × Notes)) (parameter : Option Ty) :
    c.specification d verdicts parameter = c'.specification d verdicts parameter := by
  have hfactory : c.factory = c'.factory := h.slots .factory
  have hbefore : c.before = c'.before := h.slots .before
  have hafter : c.after = c'.after := h.slots .after
  have hguards : c.guards = c'.guards := h.slots .guards
  unfold specification creation
  rw [h.source, h.destination, h.alike.profile, hfactory, hbefore, hafter, hguards, h.shapesFor_eq]

/-- **The ledgers** differ in the order of their problems only. -/
theorem rearranges_ledger (verdicts : List (Fate × Notes)) (session : Session) :
    Ledger.Rearranges (c.ledger σ verdicts session) (c'.ledger σ verdicts session) := by
  have hproblems : (c.members.filterMap (c.problem? σ)).Perm
      (c'.members.filterMap (c'.problem? σ)) := by
    rw [h.alike.problem?_eq]
    exact (entries_perm fun name => h.slots (.member name)).filterMap _
  have hentered : Ledger.Rearranges (c.entered σ verdicts session)
      (c'.entered σ verdicts session) := by
    unfold entered
    rw [h.mappingParameters_eq]
    refine Ledger.Rearranges.foldl Ledger.Rearranges.noteParameter ?_ _
    refine Ledger.Rearranges.foldl Ledger.Rearranges.enterMember ?_ _
    exact Ledger.rearranges_reports hproblems _
  have hfirst : (c'.entered σ verdicts session).first = (c.entered σ verdicts session).first := by
    obtain ⟨ds, -, hsame⟩ := hentered
    rw [hsame]
    rfl
  unfold ledger
  dsimp only
  rw [hfirst, ← h.shapesFor_eq]
  split
  · exact hentered.report _
  · exact hentered

end Same

/-! ## §3. Resolving -/

/-- **What resolving comes to** is the same for two configurations: the same specification, or a
failure of the same mapping with the same problems in some order. -/
def Resolution.Agrees (r r' : Resolution) : Prop :=
  (∃ spec, r.result = .ok spec ∧ r'.result = .ok spec) ∨
    ∃ pair ds ds', r.result = .error (.invalid pair ds) ∧ r'.result = .error (.invalid pair ds') ∧
      ds.Perm ds'

theorem resolve_of_problems {session : Session}
    (h : (c.ledger σ (c.verdicts σ d) session).problems ≠ []) :
    (c.resolve σ d session).result =
        .error (.invalid (c.ledger σ (c.verdicts σ d) session).session.pair
          (c.ledger σ (c.verdicts σ d) session).problems) ∧
      (c.resolve σ d session).session =
        ((c.ledger σ (c.verdicts σ d) session).withProblems []).session := by
  unfold Ledger.problems at h
  unfold resolve
  dsimp only
  rw [Session.finish_eq, if_neg h]
  exact ⟨rfl, rfl⟩

/-- Configurations with the same slots resolve alike. -/
theorem Same.resolve (h : c.Same c') (session : Session) :
    (c.resolve σ d session).Agrees (c'.resolve σ d session) ∧
      (c.resolve σ d session).session = (c'.resolve σ d session).session ∧
      (c.resolve σ d session).journal = (c'.resolve σ d session).journal := by
  have hjournal : (c.resolve σ d session).journal = (c'.resolve σ d session).journal := by
    show Journal.concat ((c.verdicts σ d).map (·.2.journal)) =
      Journal.concat ((c'.verdicts σ d).map (·.2.journal))
    rw [h.verdicts_eq]
  have hledgers := h.rearranges_ledger (σ := σ) (c.verdicts σ d) session
  obtain ⟨ds, hds, hledger⟩ := hledgers
  rw [h.verdicts_eq] at hledger
  by_cases hnone : (c.ledger σ (c.verdicts σ d) session).problems = []
  · -- No problems are the same in any order: the ledgers are equal.
    have hempty : ds = [] := by
      rw [hnone] at hds
      exact List.nil_perm.mp hds
    have heq : c'.ledger σ (c'.verdicts σ d) session = c.ledger σ (c.verdicts σ d) session := by
      rw [hledger, hempty, h.verdicts_eq, ← hnone, h.verdicts_eq]
      rfl
    have hok := resolve_ok_iff.mpr ⟨hnone, rfl⟩
    have hok' : (c'.resolve σ d session).result = .ok _ :=
      resolve_ok_iff.mpr ⟨by rw [heq, hnone], rfl⟩
    refine ⟨.inl ⟨_, hok, ?_⟩, ?_, hjournal⟩
    · rw [hok', heq, h.specification_eq, h.verdicts_eq]
    · rw [session_of_ok hok, session_of_ok hok', heq]
  · have hsome : (c'.ledger σ (c'.verdicts σ d) session).problems ≠ [] := by
      rw [hledger]
      intro hempty
      have hnil : ds = [] := hempty
      rw [hnil] at hds
      exact hnone hds.eq_nil
    obtain ⟨hresult, hsession⟩ := resolve_of_problems hnone
    obtain ⟨hresult', hsession'⟩ := resolve_of_problems hsome
    refine ⟨.inr ⟨_, _, _, hresult, ?_, hds⟩, ?_, hjournal⟩
    · rw [hresult', hledger, h.verdicts_eq]
      rfl
    · rw [hsession, hsession', hledger, h.verdicts_eq]
      rfl

/-- **Settings on different slots commute.**  Two lists of settings with the same settings on each
slot, in the same order, resolve to the same specification, or fail both with the same problems in
some order.  The same callbacks run, and the session is left with the same counts. -/
theorem settings_commute (σ : Schema) (d : Defaults) (source destination : String)
    {ss ss' : List Setting} (h : SlotWise ss ss') (session : Session) :
    let r := (ofSettings source destination ss).resolve σ d session
    let r' := (ofSettings source destination ss').resolve σ d session
    r.Agrees r' ∧ r.session = r'.session ∧ r.journal = r'.journal := by
  obtain ⟨hsource, hdestination⟩ := source_ofSettings source destination ss
  obtain ⟨hsource', hdestination'⟩ := source_ofSettings source destination ss'
  have hsame : (ofSettings source destination ss).Same (ofSettings source destination ss') :=
    ⟨hsource.trans hsource'.symm, hdestination.trans hdestination'.symm,
      fun slot => sameAt_ofSettings (h slot) source destination⟩
  exact hsame.resolve session

/-- Two members that a line does not have: the problems come in the order of the settings. -/
theorem settings_commute_unknown :
    SlotWise [.ignore "number", .ignore "heading", .order "title" 1]
        [.ignore "heading", .ignore "number", .order "title" 1] ∧
      Resolution.Agrees
        ((ofSettings "Ticket" "Line" [.ignore "number", .ignore "heading", .order "title" 1]).resolve
          ticketSchema {} { pair := "" })
        ((ofSettings "Ticket" "Line" [.ignore "heading", .ignore "number", .order "title" 1]).resolve
          ticketSchema {} { pair := "" }) ∧
      ((ofSettings "Ticket" "Line" [.ignore "number", .ignore "heading", .order "title" 1]).resolve
        ticketSchema {} { pair := "" }).diagnostics =
          [.unknownMember "number", .unknownMember "heading"] ∧
      ((ofSettings "Ticket" "Line" [.ignore "heading", .ignore "number", .order "title" 1]).resolve
        ticketSchema {} { pair := "" }).diagnostics =
          [.unknownMember "heading", .unknownMember "number"] := by
  have hslots : SlotWise [.ignore "number", .ignore "heading", .order "title" 1]
      [.ignore "heading", .ignore "number", .order "title" 1] :=
    slotWise_swap (s := .ignore "number") (t := .ignore "heading") (by decide) []
      [.order "title" 1]
  refine ⟨hslots, (settings_commute ticketSchema {} "Ticket" "Line" hslots { pair := "" }).1, ?_, ?_⟩
  · with_unfolding_all rfl
  · with_unfolding_all rfl

end Config

end RecordMap
