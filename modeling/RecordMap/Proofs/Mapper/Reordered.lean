import RecordMap.Proofs.Mapper.Construct
import RecordMap.Proofs.Mapper.Steady

/-!
# Reordered plans

Steady plans that are the same but for the priorities of their members are `Reordered`.
Their turns are the same, in another order, so that an update by one that succeeds
lays the same values over whatever destination an update by the other is given
(`Specification.Reordered.update_of_ok`, `Mapper.invoke_of_reordered`).  A plan is a
reordered one of itself, and then this says that an update that succeeds does the same
to every destination.

Nothing that is nested need be steady: a nested call starts from a destination and a
context of its own.
-/

namespace RecordMap

variable {ω ω' : Type} {σ : Schema} {parameter : Option Value} {source : Value}

/-! ## §1. Reordered plans -/

/-- The plan of a member without its priority. -/
def MemberPlan.unordered (m : MemberPlan) : MemberPlan := { m with order := 0 }

/-- **Steady plans that differ in the order of their members only.** -/
structure Specification.Reordered (s s' : Specification) : Prop where
  steady : s.Steady
  distinct : s.members.Pairwise fun m n => m.declaration ≠ n.declaration
  rest : s' = { s with members := s'.members }
  members : (s'.members.map MemberPlan.unordered).Perm (s.members.map MemberPlan.unordered)

theorem overlay_unordered (turns : List (MemberPlan × Option Value)) (d : Value) :
    overlay (turns.map fun taken => (taken.1.unordered, taken.2)) d = overlay turns d :=
  List.foldl_map

/-- Members of another order can be given the turns of those they correspond to. -/
theorem exists_turns {turns : List (MemberPlan × Option Value)} {ms : List MemberPlan}
    (h : (ms.map MemberPlan.unordered).Perm (turns.map fun taken => taken.1.unordered)) :
    ∃ turns' : List (MemberPlan × Option Value), turns'.map Prod.fst = ms ∧
      (turns'.map fun taken => (taken.1.unordered, taken.2)).Perm
        (turns.map fun taken => (taken.1.unordered, taken.2)) := by
  induction ms generalizing turns with
  | nil =>
    have hnil := List.map_eq_nil_iff.mp h.nil_eq.symm
    subst hnil
    exact ⟨[], rfl, .nil⟩
  | cons m ms ih =>
    obtain ⟨taken, hmem, hsame⟩ := List.mem_map.mp (h.subset List.mem_cons_self)
    obtain ⟨before, after, rfl⟩ := List.append_of_mem hmem
    -- Take the turn that corresponds out of the middle.
    have hfront : (before ++ taken :: after).Perm (taken :: (before ++ after)) := List.perm_middle
    have hrest := h.trans (hfront.map _)
    rw [List.map_cons, List.map_cons, hsame] at hrest
    obtain ⟨turns', hms, hturns⟩ := ih hrest.cons_inv
    refine ⟨(m, taken.2) :: turns', congrArg (m :: ·) hms, ?_⟩
    refine .trans ?_ (hfront.map _).symm
    rw [List.map_cons, List.map_cons, hsame]
    exact hturns.cons _

namespace Specification.Reordered

variable {s s' : Specification}

theorem refl (hs : s.Steady)
    (hdistinct : s.members.Pairwise fun m n => m.declaration ≠ n.declaration) : s.Reordered s :=
  ⟨hs, hdistinct, rfl, .refl _⟩

theorem symm (h : s.Reordered s') : s'.Reordered s := by
  have hbefore : s'.before = s.before := by rw [h.rest]
  have hafter : s'.after = s.after := by rw [h.rest]
  refine ⟨⟨hbefore.trans h.steady.before, hafter.trans h.steady.after, ?_⟩, ?_, ?_, h.members.symm⟩
  · intro m' hm'
    obtain ⟨m, hm, hsame⟩ := List.mem_map.mp (h.members.subset (List.mem_map_of_mem hm'))
    have hsteady := h.steady.members m hm
    have hproduction : m.unordered.production = m'.unordered.production := by rw [hsame]
    change m.production = m'.production at hproduction
    constructor
    · rw [← hproduction]
      exact hsteady.providers
    · rw [← hproduction]
      exact hsteady.converters
  · have hplaces := (h.members.map (·.declaration)).nodup_iff
    rw [List.map_map, List.map_map] at hplaces
    exact List.pairwise_map.mp (hplaces.mpr (List.pairwise_map.mpr h.distinct))
  · rw [h.rest]

end Specification.Reordered

/-- **The turns a plan selects** for a source: none if a guard does not hold, else one for
each member, which has a value just if the conditions of the member hold. -/
inductive Specification.Selects (σ : Schema) (s : Specification) (parameter : Option Value)
    (source : Value) : List (MemberPlan × Option Value) → Prop where
  | spared (guards : Condition.verdict σ parameter source s.guards = .ok false) :
      Selects σ s parameter source []
  | taken {turns : List (MemberPlan × Option Value)}
      (guards : Condition.verdict σ parameter source s.guards = .ok true)
      (all : turns.map Prod.fst = s.members)
      (verdicts : ∀ taken ∈ turns,
        Condition.verdict σ parameter source taken.1.conditions = .ok taken.2.isSome) :
      Selects σ s parameter source turns

namespace Specification.Selects

variable {s s' : Specification} {turns : List (MemberPlan × Option Value)}

theorem mem_members (h : s.Selects σ parameter source turns) {taken : MemberPlan × Option Value}
    (htaken : taken ∈ turns) : taken.1 ∈ s.members := by
  cases h with
  | spared guards => cases htaken
  | taken guards all verdicts =>
    rw [← all]
    exact List.mem_map_of_mem htaken

/-- Turns that are selected are at distinct places. -/
theorem distinct (h : s.Selects σ parameter source turns) (hs : s.Reordered s') :
    turns.Pairwise fun x y => x.1.declaration ≠ y.1.declaration := by
  cases h with
  | spared guards => exact .nil
  | taken guards all verdicts =>
    have hdistinct := hs.distinct
    rw [← all, List.pairwise_map] at hdistinct
    exact hdistinct

end Specification.Selects

/-! ## §2. Updates -/

/-- Trails that have nothing to do with each other, but for an invariant of each. -/
def Trail.Apart (A : ω → Prop) (A' : ω' → Prop) (t : Trail ω) (u : Trail ω') : Prop :=
  A t.outside ∧ A' u.outside

theorem Trail.keepsNotes_apart (A : ω → Prop) (A' : ω' → Prop) :
    Trail.KeepsNotes (Trail.Apart A A') := fun _ _ _ h => h

/-- Calls on such trails. -/
abbrev Call.Apart (A : ω → Prop) (A' : ω' → Prop) (c : Call ω) (c' : Call ω') : Prop :=
  Trail.Apart A A' c.trail c'.trail

theorem Call.keepsNotes_apart (A : ω → Prop) (A' : ω' → Prop) :
    Call.KeepsNotes (Call.Apart A A') := fun _ _ _ h => h

/-- **One handler yields what another gives**: from any state with the invariant, though
the other may fail. -/
abbrev Nesting.Yields (A : ω → Prop) (A' : ω' → Prop) (nest : Nesting ω) (nest' : Nesting ω')
    (p : Pairing) : Prop :=
  Nesting.Simulates (Trail.Apart A A') (fun _ _ => True) nest nest' p

section

variable {A : ω → Prop} {A' : ω' → Prop}

/-- **A turn is settled** if it comes to the same at every destination and in every
call. -/
def Settled (A : ω → Prop) (turn : MemberPlan → Value → Run (Call ω) (Option Value))
    (m : MemberPlan) (o : Option Value) : Prop :=
  ∀ d call, A call.trail.outside →
    ∃ call', (turn m d).run call = (.ok o, call') ∧ A call'.trail.outside

/-- The turns of a run that succeeds are settled for any run that yields the same. -/
theorem Passes.settled {turn : MemberPlan → Value → Run (Call ω) (Option Value)}
    {turn' : MemberPlan → Value → Run (Call ω') (Option Value)} {a a' : Assembly ω}
    {turns : List (MemberPlan × Option Value)}
    (hyields : ∀ taken ∈ turns, ∀ d d',
      Run.Simulates (Call.Apart A A') (fun _ _ => True) (turn taken.1 d) (turn' taken.1 d'))
    (h : Passes turn a turns a') (ha : A a.call.trail.outside) {w : ω'} (hw : A' w) :
    A a'.call.trail.outside ∧ ∀ taken ∈ turns, Settled A' turn' taken.1 taken.2 := by
  induction h with
  | done a => exact ⟨ha, fun _ hnone => absurd hnone List.not_mem_nil⟩
  | @next m a a' o call turns took rest ih =>
    obtain ⟨hhead, hrest⟩ := List.forall_mem_cons.mp hyields
    have hsame : ∀ d call', A' call'.trail.outside →
        ((turn' m d).run call').1 = .ok o ∧
          Trail.Apart A A' call.trail ((turn' m d).run call').2.trail := by
      intro d call' hcall'
      rcases hhead a.destination d a.call call' ⟨ha, hcall'⟩ with ⟨e, hfail, -⟩ | ⟨heq, happart⟩
      · rw [took] at hfail
        cases hfail
      · rw [took] at heq happart
        exact ⟨heq.symm, happart⟩
    have hcall : A call.trail.outside :=
      (hsame a.destination { trail := { outside := w } } hw).2.1
    obtain ⟨hkeep, hsettled⟩ := ih hrest hcall
    refine ⟨hkeep, List.forall_mem_cons.mpr ⟨?_, hsettled⟩⟩
    intro d call' hcall'
    obtain ⟨hresult, happart⟩ := hsame d call' hcall'
    exact ⟨_, Prod.ext hresult rfl, happart.2⟩

/-- Settled turns can be taken from anywhere. -/
theorem Passes.of_settled {turn : MemberPlan → Value → Run (Call ω) (Option Value)}
    {turns : List (MemberPlan × Option Value)}
    (h : ∀ taken ∈ turns, Settled A turn taken.1 taken.2) {a : Assembly ω}
    (ha : A a.call.trail.outside) :
    ∃ a', Passes turn a turns a' ∧ A a'.call.trail.outside := by
  induction turns generalizing a with
  | nil => exact ⟨a, .done a, ha⟩
  | cons taken turns ih =>
    obtain ⟨hhead, hrest⟩ := List.forall_mem_cons.mp h
    obtain ⟨call, htook, hcall⟩ := hhead a.destination a.call ha
    let next : Assembly ω := { destination := taken.1.put a.destination taken.2, call }
    obtain ⟨a', hpasses, hkeep⟩ := ih hrest (a := next) hcall
    exact ⟨a', .next htook hpasses, hkeep⟩

/-- The turns of a steady plan yield the same over handlers that do. -/
theorem Specification.Steady.turn_yields {s : Specification} (hs : s.Steady)
    {parameter : Option Value} {nest : Nat → Nesting ω} {nest' : Nat → Nesting ω'}
    (hnest : ∀ i p, s.NestsAt i p → Nesting.Yields A A' (nest i) (nest' i) p)
    {m : MemberPlan} (hm : m ∈ s.members) (d d' : Value) :
    Run.Simulates (Call.Apart A A') (fun _ _ => True)
      (s.turn σ nest parameter source m d) (s.turn σ nest' parameter source m d') := by
  refine (hs.members m hm).simulates_turn (Call.keepsNotes_apart A A') ?_ s.source d d'
  intro a k sentinel hread p hp v
  have hnests := hnest m.declaration p ⟨m, hm, rfl, a, k, sentinel, hread, hp⟩
  exact (hnests v _).zoom (fun _ _ h => h) (fun _ _ _ _ _ h => h) fun _ _ _ _ _ h => h

namespace Specification.Reordered

variable {s s' : Specification} {nest : Nat → Nesting ω} {nest' : Nat → Nesting ω'}

/-- The turn of a member does not depend on its priority, or on that of others. -/
theorem settled_turn (h : s.Reordered s') {m m' : MemberPlan} {o : Option Value}
    (hsame : m'.unordered = m.unordered)
    (hsettled : Settled A' (s.turn σ nest' parameter source) m o) :
    Settled A' (s'.turn σ nest' parameter source) m' o := by
  rw [h.rest]
  have hturn : s.turn σ nest' parameter source m'.unordered =
      s.turn σ nest' parameter source m.unordered := by rw [hsame]
  intro d call hcall
  obtain ⟨call', htook, hcall'⟩ := hsettled d call hcall
  refine ⟨call', ?_, hcall'⟩
  exact (congrArg (fun turn => (turn d).run call) hturn).trans htook

variable (h : s.Reordered s')
  (hnest : ∀ i p, s.NestsAt i p → Nesting.Yields A A' (nest i) (nest' i) p)

include h hnest

/-- **The members of a steady plan**, once they have been assigned, are assigned the
same in any other order. -/
theorem assignMembers_of_ok {a a' : Assembly ω}
    (hrun : (s.assignMembers σ nest parameter source).run a = (.ok (), a'))
    (ha : A a.call.trail.outside) {w : ω'} (hw : A' w) :
    A a'.call.trail.outside ∧ ∃ turns, turns.map Prod.fst = s.members ∧
      (∀ taken ∈ turns,
        Condition.verdict σ parameter source taken.1.conditions = .ok taken.2.isSome) ∧
      a'.destination = overlay turns a.destination ∧
      ∀ b : Assembly ω', A' b.call.trail.outside → ∃ b' : Assembly ω',
        (s'.assignMembers σ nest' parameter source).run b = (.ok (), b') ∧
          b'.destination = overlay turns b.destination ∧ A' b'.call.trail.outside := by
  obtain ⟨turns, hall, hpasses⟩ := assignMembers_ok_iff.mp hrun
  have hmem : ∀ taken ∈ turns, taken.1 ∈ s.members := by
    intro taken htaken
    rw [← hall]
    exact List.mem_map_of_mem htaken
  have hyields : ∀ taken ∈ turns, ∀ d d', Run.Simulates _ _
      (s.turn σ nest parameter source taken.1 d) (s.turn σ nest' parameter source taken.1 d') :=
    fun taken htaken => h.steady.turn_yields hnest (hmem taken htaken)
  obtain ⟨hkeep, hsettled⟩ := Passes.settled hyields hpasses ha hw
  refine ⟨hkeep, turns, hall, verdicts_of_passes hpasses, hpasses.destination_eq, fun b hb => ?_⟩
  -- Give every member of the other plan the turn of the one it corresponds to.
  have hperm := h.members
  rw [← hall, List.map_map] at hperm
  obtain ⟨turns', hall', hsame⟩ := exists_turns hperm
  have hsettled' : ∀ taken ∈ turns',
      Settled A' (s'.turn σ nest' parameter source) taken.1 taken.2 := by
    rintro ⟨m', o'⟩ htaken
    obtain ⟨⟨m, o⟩, hmo, heq⟩ := List.mem_map.mp (hsame.subset (List.mem_map_of_mem htaken))
    obtain ⟨hplan, hvalue⟩ := Prod.mk.inj heq
    subst hvalue
    exact h.settled_turn hplan.symm (hsettled _ hmo)
  obtain ⟨b', hpasses', hb'⟩ := Passes.of_settled hsettled' hb
  refine ⟨b', assignMembers_ok_iff.mpr ⟨turns', hall', hpasses'⟩, ?_, hb'⟩
  have hdistinct := h.symm.distinct
  rw [← hall', List.pairwise_map] at hdistinct
  rw [hpasses'.destination_eq, ← overlay_unordered turns', ← overlay_unordered turns]
  exact overlay_perm hsame (List.pairwise_map.mpr hdistinct) _

/-- **An update that succeeds is an overlay.**  The same turns are laid over whatever
destination an update is given by a reordered plan, over handlers that yield what those
of the first give. -/
theorem update_of_ok {d d' : Value} {t t' : Trail ω}
    (hrun : (s.update σ nest parameter source).run { destination := d, trail := t } =
      (.ok (), { destination := d', trail := t' }))
    (ht : A t.outside) {w : ω'} (hw : A' w) :
    A t'.outside ∧ ∃ turns, s.Selects σ parameter source turns ∧ d' = overlay turns d ∧
      ∀ e (u : Trail ω'), A' u.outside → ∃ u', A' u'.outside ∧
        (s'.update σ nest' parameter source).run { destination := e, trail := u } =
          (.ok (), { destination := overlay turns e, trail := u' }) := by
  have hbefore' : s'.before = [] := h.symm.steady.before
  have hafter' : s'.after = [] := h.symm.steady.after
  have hguards' : s'.guards = s.guards := by rw [h.rest]
  -- The guards come to the same on both sides.
  have hsides : Run.Simulates (Call.Apart A A') (fun _ _ => False)
      (Condition.allHold σ parameter source s.guards)
      (Condition.allHold σ parameter source s.guards) :=
    Condition.simulates_allHold (Call.keepsNotes_apart A A') s.guards source
  rw [s.run_update_of_no_hooks h.steady.before h.steady.after] at hrun
  rcases hguards : (Condition.allHold σ parameter source s.guards).run { trail := t }
    with ⟨e | holds, call⟩
  · rw [hguards] at hrun
    cases hrun
  rw [hguards] at hrun
  have hside : ∀ u : Trail ω', A' u.outside → A call.trail.outside ∧ ∃ call',
      (Condition.allHold σ parameter source s.guards).run { trail := u } = (.ok holds, call') ∧
        A' call'.trail.outside := by
    intro u hu
    obtain ⟨heq, happart⟩ := hsides.lockstep { trail := t } { trail := u } ⟨ht, hu⟩
    rw [hguards] at heq happart
    exact ⟨happart.1, _, Prod.ext heq.symm rfl, happart.2⟩
  have hcall := (hside { outside := w } hw).1
  have hverdict : Condition.verdict σ parameter source s.guards = .ok holds := by
    rw [← Condition.run_allHold s.guards { trail := t }, hguards]
  cases holds with
  | false =>
    cases hrun
    refine ⟨hcall, [], .spared hverdict, rfl, ?_⟩
    intro e u hu
    obtain ⟨-, call', hrun', hu'⟩ := hside u hu
    refine ⟨call'.trail, hu', ?_⟩
    rw [s'.run_update_of_no_hooks hbefore' hafter', hguards', hrun']
    rfl
  | true =>
    dsimp only at hrun
    rcases hmembers : (s.assignMembers σ nest parameter source).run { destination := d, call }
      with ⟨r, a⟩
    rw [hmembers] at hrun
    cases hrun
    obtain ⟨hkeep, turns, hall, hverdicts, hoverlay, hother⟩ :=
      h.assignMembers_of_ok hnest hmembers hcall hw
    refine ⟨hkeep, turns, .taken hverdict hall hverdicts, hoverlay, ?_⟩
    intro e u hu
    obtain ⟨-, call', hrun', hu'⟩ := hside u hu
    obtain ⟨b', hmembers', hb', hkeep'⟩ := hother { destination := e, call := call' } hu'
    refine ⟨b'.call.trail, hkeep', ?_⟩
    rw [s'.run_update_of_no_hooks hbefore' hafter', hguards', hrun']
    dsimp only
    rw [hmembers']
    dsimp only
    rw [hb']

end Specification.Reordered

/-! ## §3. Constructions -/

/-- Creating a destination comes to the same in every call. -/
theorem Specification.simulates_creating (s : Specification) {esc : MapError → Trail ω → Prop} :
    Run.Simulates (Trail.Apart A A') esc (s.creating σ parameter source)
      (s.creating σ parameter source) := by
  have hcreate : Run.Simulates (Call.Apart A A') (Call.Escape esc) (s.create σ parameter source)
      (s.create σ parameter source) := by
    unfold create
    split
    · exact Factory.simulates_make (Call.keepsNotes_apart A A') _ source
    · exact .require _ _
    · exact .pure _
  exact hcreate.zoom (fun _ _ h => h) (fun _ _ _ _ _ h => h) fun _ _ _ _ _ h => h

section

variable {s s' : Specification} {nest : Nat → Nesting ω} {nest' : Nat → Nesting ω'}

theorem Specification.Reordered.construct_yields (h : s.Reordered s')
    (hnest : ∀ i p, s.NestsAt i p → Nesting.Yields A A' (nest i) (nest' i) p)
    (parameter : Option Value) (source : Value) :
    Run.Simulates (Trail.Apart A A') (fun _ _ => True) (s.construct σ nest parameter source)
      (s'.construct σ nest' parameter source) := by
  intro t u htu
  rcases hrun : (s.construct σ nest parameter source).run t with ⟨e | d', t'⟩
  · exact .inl ⟨e, rfl, trivial⟩
  -- The first construction is a creation and an update; so is the other.
  obtain ⟨start, t₁, hcreating, hupdate⟩ :=
    ((s.constructsAs nest parameter source).ok_iff t d' t').mp hrun
  have hcreate : Run.Simulates (Trail.Apart A A') (fun _ _ => False)
      (s.creating σ parameter source) (s.creating σ parameter source) := s.simulates_creating
  obtain ⟨heq, happart⟩ := hcreate.lockstep t u htu
  rw [hcreating] at heq happart
  obtain ⟨ht', turns, -, rfl, hother⟩ := h.update_of_ok hnest hupdate happart.1 happart.2
  obtain ⟨u', hu', hupdate'⟩ := hother start _ happart.2
  have hcreating' : (s'.creating σ parameter source).run u =
      (.ok start, ((s.creating σ parameter source).run u).2) := by
    rw [h.rest]
    exact Prod.ext heq.symm rfl
  have hrun' := ((s'.constructsAs nest' parameter source).ok_iff u _ u').mpr
    ⟨start, _, hcreating', hupdate'⟩
  rw [hrun']
  exact .inr ⟨rfl, ht', hu'⟩

/-- **Construction from any value** by a reordered plan. -/
theorem Mapper.constructAny_yields {m m' : Mapper} (h : m.spec.Reordered m'.spec)
    (hnest : ∀ i p, m.spec.NestsAt i p → Nesting.Yields A A' (nest i) (nest' i) p)
    (source : Value) (parameter : Option Value) :
    Run.Simulates (Trail.Apart A A') (fun _ _ => True)
      (m.constructAny σ nest source parameter) (m'.constructAny σ nest' source parameter) := by
  have hconstruct := fun parameter source => h.construct_yields (σ := σ) hnest parameter source
  obtain ⟨s⟩ := m
  obtain ⟨s'⟩ := m'
  have hrest : s' = { s with members := s'.members } := h.rest
  generalize s'.members = members at hrest
  subst hrest
  -- Shapes and parameter are the same, and so is all that depends on them.
  have hshapes : (Mapper.mk { s with members }).shapes = (Mapper.mk s).shapes := rfl
  unfold constructAny
  refine (Run.Simulates.require _ _).bind fun source => ?_
  rw [hshapes]
  split
  · exact (simulates_checkParameter (Mapper.mk s) _).bind fun _ => hconstruct _ source
  · exact hconstruct none source
  · exact hconstruct none source
  · exact .throw _

end

/-! ## §4. Invocations -/

namespace Mapper

variable {m m' : Mapper} {d d' : Value}

/-- Whether an update is turned away does not depend on the destination. -/
theorem rejection?_destination (m : Mapper) (d e : Value) :
    m.rejection? σ (.updateFrom source parameter d) =
      m.rejection? σ (.updateFrom source parameter e) := by
  cases parameter <;> rfl

/-- An update succeeds if it is admitted and its routine does. -/
theorem invoke_updateFrom_ok_iff {nest : Nat → Nesting ω} {t t' : Trail ω} :
    m.invoke σ nest (.updateFrom source parameter d) t = (.updated d' none, t') ↔
      m.rejection? σ (.updateFrom source parameter d) = none ∧
        (m.spec.update σ nest parameter source).run { destination := d, trail := t } =
          (.ok (), { destination := d', trail := t' }) := by
  cases hrejected : m.rejection? σ (.updateFrom source parameter d) with
  | some e =>
    have hrefused : (Invocation.updateFrom source parameter d).refused e = .updated d (some e) := by
      cases parameter <;> rfl
    rw [invoke_of_rejection hrejected, hrefused]
    constructor
    · rintro ⟨⟩
    · rintro ⟨⟨⟩, -⟩
  | none =>
    rw [invoke_updateFrom hrejected]
    unfold Outcome.updating
    rcases (m.spec.update σ nest parameter source).run { destination := d, trail := t }
      with ⟨e | _, u⟩
    · constructor
      · rintro ⟨⟩
      · rintro ⟨-, ⟨⟩⟩
    · constructor
      · rintro ⟨⟩
        exact ⟨rfl, rfl⟩
      · rintro ⟨-, ⟨⟩⟩
        rfl

/-- **An update that succeeds** does the same to every destination, by a reordered plan
and over handlers that yield what those of the first give. -/
theorem invoke_of_reordered {nest : Nat → Nesting ω} {nest' : Nat → Nesting ω'}
    (h : m.spec.Reordered m'.spec)
    (hnest : ∀ i p, m.spec.NestsAt i p → Nesting.Yields A A' (nest i) (nest' i) p)
    {t t' : Trail ω}
    (hrun : m.invoke σ nest (.updateFrom source parameter d) t = (.updated d' none, t'))
    (ht : A t.outside) {w : ω'} (hw : A' w) :
    A t'.outside ∧ ∃ turns, m.spec.Selects σ parameter source turns ∧ d' = overlay turns d ∧
      ∀ e (u : Trail ω'), A' u.outside → ∃ u', A' u'.outside ∧
        m'.invoke σ nest' (.updateFrom source parameter e) u =
          (.updated (overlay turns e) none, u') := by
  obtain ⟨hadmitted, hupdate⟩ := invoke_updateFrom_ok_iff.mp hrun
  obtain ⟨hkeep, turns, hselects, hoverlay, hother⟩ := h.update_of_ok hnest hupdate ht hw
  have hsame : ∀ e, m'.rejection? σ (.updateFrom source parameter e) = none := by
    intro e
    rw [← hadmitted, m.rejection?_destination d e]
    obtain ⟨s⟩ := m
    obtain ⟨s'⟩ := m'
    have hrest : s' = { s with members := s'.members } := h.rest
    rw [hrest]
    cases parameter <;> rfl
  refine ⟨hkeep, turns, hselects, hoverlay, fun e u hu => ?_⟩
  obtain ⟨u', hu', hupdate'⟩ := hother e u hu
  exact ⟨u', hu', invoke_updateFrom_ok_iff.mpr ⟨hsame e, hupdate'⟩⟩

end Mapper

end

end RecordMap
