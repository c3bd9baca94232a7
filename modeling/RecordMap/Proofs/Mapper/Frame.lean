import RecordMap.Proofs.Mapper.Turn
import RecordMap.Proofs.Nesting.Callbacks

/-!
# The frame of an update

An update touches the members that have had their turns, and of those only the ones
whose conditions held.  Without hooks nothing else touches the destination, so what
an update leaves can be told member by member (`Framed`), whether it succeeds
(`Specification.Completes`) or fails on the way (`Specification.Fails`).

A turn that fails has not reached the destination: the failure of the conditions, of
the provider, of the conversion, or of a nested call comes before the change.
-/

namespace RecordMap

variable {ω : Type} {σ : Schema} {parameter handedOn : Option Value} {source : Value}

/-! ## §1. Verdicts -/

/-- **What conditions come to**: whether all of them hold, or the failure of one. -/
def Condition.verdict (σ : Schema) (parameter : Option Value) (source : Value)
    (cs : List Condition) : Except MapError Bool :=
  ((allHold σ parameter source cs).run ({ trail := { outside := () } } : Call Unit)).1

/-- Conditions come to the same in every call. -/
theorem Condition.run_allHold (cs : List Condition) (call : Call ω) :
    ((allHold σ parameter source cs).run call).1 = verdict σ parameter source cs := by
  have hnotes : Call.KeepsNotes fun (_ : Call ω) (_ : Call Unit) => True :=
    fun _ _ _ _ => trivial
  have hsame : Run.Simulates _ (fun _ _ => False) (allHold σ parameter source cs)
      (allHold σ parameter source cs) := simulates_allHold hnotes cs source
  exact (hsame.lockstep call { trail := { outside := () } } trivial).1

/-- A member gets a value in its turn just if its conditions hold. -/
theorem MemberPlan.verdict_of_turn {m : MemberPlan} {nest : Nesting ω} {recordName : String}
    {destination : Value} {call call' : Call ω} {o : Option Value}
    (h : (m.turn σ parameter handedOn nest recordName source destination).run call = (.ok o, call')) :
    Condition.verdict σ parameter source m.conditions = .ok o.isSome := by
  unfold turn at h
  obtain ⟨holds, call₁, hholds, h⟩ := Run.bind_ok h
  rw [← Condition.run_allHold m.conditions call, hholds]
  cases holds with
  | false =>
    cases h
    rfl
  | true =>
    obtain ⟨v, call₂, -, h⟩ := Run.bind_ok h
    obtain ⟨w, -, rfl⟩ := Run.map_ok h
    rfl

/-! ## §2. Frames -/

/-- **What turns leave of a destination**: members with a value hold it, and all else
is as it was. -/
structure Framed (turns : List (MemberPlan × Option Value)) (d d' : Value) : Prop where
  type : d'.type = d.type
  assigned : ∀ m v, (m, some v) ∈ turns → d'.slot? m.declaration = some v
  /-- A member whose conditions do not hold. -/
  passed : ∀ m, (m, none) ∈ turns → d'.slot? m.declaration = d.slot? m.declaration
  /-- A member that has had no turn. -/
  others : ∀ i, (∀ taken ∈ turns, taken.1.declaration ≠ i) → d'.slot? i = d.slot? i

theorem type_overlay (turns : List (MemberPlan × Option Value)) (d : Value) :
    (overlay turns d).type = d.type := by
  induction turns generalizing d with
  | nil => rfl
  | cons taken turns ih =>
    obtain ⟨m, o⟩ := taken
    refine (ih (m.put d o)).trans ?_
    cases o with
    | none => rfl
    | some v => exact d.type_setMember _ v

/-- **Turns of distinct members** leave the frame. -/
theorem framed_overlay {turns : List (MemberPlan × Option Value)} {d : Value}
    (hdistinct : turns.Pairwise fun x y => x.1.declaration ≠ y.1.declaration)
    (hslots : ∀ taken ∈ turns, (d.slot? taken.1.declaration).isSome = true) :
    Framed turns d (overlay turns d) where
  type := type_overlay turns d
  assigned _ _ hmem := slot?_overlay_of_mem hdistinct hmem (hslots _ hmem)
  passed _ hmem := slot?_overlay_of_mem hdistinct hmem (hslots _ hmem)
  others _ habsent := slot?_overlay_of_absent habsent d

/-! ## §3. Updates -/

namespace Specification

/-- The turn of a member in a call. -/
def turn (σ : Schema) (s : Specification) (nest : Nat → Nesting ω) (parameter : Option Value)
    (source : Value) (m : MemberPlan) (destination : Value) : Run (Call ω) (Option Value) :=
  m.turn σ parameter (s.handedOn parameter) (nest m.declaration) s.source source destination

/-- **Members have had their turns**: one after the other, each settled by its
conditions, and with no effect beyond the frame. -/
structure Taken (σ : Schema) (s : Specification) (nest : Nat → Nesting ω)
    (parameter : Option Value) (source : Value) (start : Assembly ω)
    (turns : List (MemberPlan × Option Value)) (reached : Assembly ω) : Prop where
  passes : Passes (s.turn σ nest parameter source) start turns reached
  verdicts : ∀ taken ∈ turns,
    Condition.verdict σ parameter source taken.1.conditions = .ok taken.2.isSome
  framed : Framed turns start.destination reached.destination

/-- **What an update that succeeds leaves** of a destination. -/
inductive Completes (σ : Schema) (s : Specification) (nest : Nat → Nesting ω)
    (parameter : Option Value) (source d : Value) (t : Trail ω) : Value → Prop where
  /-- A guard does not hold. -/
  | spared (guards : Condition.verdict σ parameter source s.guards = .ok false) :
      Completes σ s nest parameter source d t d
  /-- Every planned member has had its turn. -/
  | assigned {call : Call ω} {turns : List (MemberPlan × Option Value)} {reached : Assembly ω}
      (guards : (Condition.allHold σ parameter source s.guards).run { trail := t } =
        (.ok true, call))
      (all : turns.map Prod.fst = s.members)
      (taken : s.Taken σ nest parameter source { destination := d, call } turns reached) :
      Completes σ s nest parameter source d t reached.destination

/-- **What an update that fails leaves** of a destination. -/
inductive Fails (σ : Schema) (s : Specification) (nest : Nat → Nesting ω)
    (parameter : Option Value) (source d : Value) (t : Trail ω) (e : MapError) : Value → Prop where
  /-- A guard fails. -/
  | unguarded (guards : Condition.verdict σ parameter source s.guards = .error e) :
      Fails σ s nest parameter source d t e d
  /-- The members before one have had their turns, and the turn of that one fails.
  It keeps what it has, and so do all after it. -/
  | stopped {call call' : Call ω} {turns : List (MemberPlan × Option Value)} {m : MemberPlan}
      {after : List MemberPlan} {reached : Assembly ω}
      (guards : (Condition.allHold σ parameter source s.guards).run { trail := t } =
        (.ok true, call))
      (planned : s.members = turns.map Prod.fst ++ m :: after)
      (taken : s.Taken σ nest parameter source { destination := d, call } turns reached)
      (fails : (s.turn σ nest parameter source m reached.destination).run reached.call =
        (.error e, call'))
      (kept : ∀ n ∈ m :: after,
        reached.destination.slot? n.declaration = d.slot? n.declaration) :
      Fails σ s nest parameter source d t e reached.destination

variable {s : Specification} {nest : Nat → Nesting ω} {d d' : Value} {t t' : Trail ω}

/-- Assigning the members succeeds just if each has its turn. -/
theorem assignMembers_ok_iff {a a' : Assembly ω} :
    (s.assignMembers σ nest parameter source).run a = (.ok (), a') ↔
      ∃ turns, turns.map Prod.fst = s.members ∧
        Passes (s.turn σ nest parameter source) a turns a' :=
  MemberPlan.forM_assign_ok_iff fun m a => m.run_assign_eq a

/-- Assigning the members fails at the first whose turn fails. -/
theorem assignMembers_error_iff {a a' : Assembly ω} {e : MapError} :
    (s.assignMembers σ nest parameter source).run a = (.error e, a') ↔
      ∃ turns m after mid call, s.members = turns.map Prod.fst ++ m :: after ∧
        Passes (s.turn σ nest parameter source) a turns mid ∧
        (s.turn σ nest parameter source m mid.destination).run mid.call = (.error e, call) ∧
        a' = { mid with call } :=
  MemberPlan.forM_assign_error_iff fun m a => m.run_assign_eq a

/-- **An update without hooks** is its guards, and then its members. -/
theorem run_update_of_no_hooks (hbefore : s.before = []) (hafter : s.after = []) (d : Value)
    (t : Trail ω) :
    (s.update σ nest parameter source).run { destination := d, trail := t } =
      match (Condition.allHold σ parameter source s.guards).run { trail := t } with
      | (.error e, call) => (.error e, { destination := d, trail := call.trail })
      | (.ok false, call) => (.ok (), { destination := d, trail := call.trail })
      | (.ok true, call) =>
          let (r, a) := (s.assignMembers σ nest parameter source).run { destination := d, call }
          (r, { destination := a.destination, trail := a.call.trail }) := by
  have hnone : ∀ f : Hook → Run (Assembly ω) Unit, [].forM f = pure () := fun _ => rfl
  unfold update body
  rw [hbefore, hafter, hnone, pure_bind, Run.run_zoom, Run.run_bind]
  unfold Assembly.onCall
  rw [Run.run_zoom]
  rcases (Condition.allHold σ parameter source s.guards).run { trail := t } with ⟨e | holds, call⟩
  · rfl
  · cases holds with
    | false => rfl
    | true =>
      dsimp only
      rw [if_pos rfl, Run.run_bind]
      rcases (s.assignMembers σ nest parameter source).run { destination := d, call }
        with ⟨e | u, a⟩
      · rfl
      · rfl

/-- Members that have had their turns have a value just if their conditions hold. -/
theorem verdicts_of_passes {start reached : Assembly ω} {turns : List (MemberPlan × Option Value)}
    (h : Passes (s.turn σ nest parameter source) start turns reached) :
    ∀ taken ∈ turns,
      Condition.verdict σ parameter source taken.1.conditions = .ok taken.2.isSome := by
  induction h with
  | done a => exact fun _ hnone => absurd hnone List.not_mem_nil
  | next took rest ih => exact List.forall_mem_cons.mpr ⟨MemberPlan.verdict_of_turn took, ih⟩

/-- Members with distinct places that are all there have had their turns. -/
theorem taken_of_passes {start reached : Assembly ω} {turns : List (MemberPlan × Option Value)}
    (hdistinct : s.members.Pairwise fun p q => p.declaration ≠ q.declaration)
    (hslots : ∀ m ∈ s.members, (start.destination.slot? m.declaration).isSome = true)
    (hturns : (turns.map Prod.fst).Sublist s.members)
    (h : Passes (s.turn σ nest parameter source) start turns reached) :
    s.Taken σ nest parameter source start turns reached where
  passes := h
  verdicts := verdicts_of_passes h
  framed := by
    rw [h.destination_eq]
    have hplaces := hdistinct.sublist hturns
    rw [List.pairwise_map] at hplaces
    refine framed_overlay hplaces ?_
    intro taken hmem
    exact hslots _ (hturns.subset (List.mem_map_of_mem hmem))

/-- What an update that succeeds leaves of members without a plan. -/
theorem Completes.slot?_unplanned (h : s.Completes σ nest parameter source d t d') {i : Nat}
    (hi : ∀ m ∈ s.members, m.declaration ≠ i) : d'.slot? i = d.slot? i := by
  cases h with
  | spared => rfl
  | assigned _ all taken =>
    refine taken.framed.others i fun turn hturn => hi _ ?_
    rw [← all]
    exact List.mem_map_of_mem hturn

/-- What an update that fails leaves of members without a plan. -/
theorem Fails.slot?_unplanned {e : MapError} (h : s.Fails σ nest parameter source d t e d') {i : Nat}
    (hi : ∀ m ∈ s.members, m.declaration ≠ i) : d'.slot? i = d.slot? i := by
  cases h with
  | unguarded => rfl
  | stopped _ planned taken _ _ =>
    refine taken.framed.others i fun turn hturn => hi _ ?_
    rw [planned]
    exact List.mem_append_left _ (List.mem_map_of_mem hturn)

variable (hbefore : s.before = []) (hafter : s.after = [])
  (hdistinct : s.members.Pairwise fun p q => p.declaration ≠ q.declaration)
  (hslots : ∀ m ∈ s.members, (d.slot? m.declaration).isSome = true)

include hbefore hafter hdistinct hslots

theorem completes_of_ok (h : (s.update σ nest parameter source).run { destination := d, trail := t } =
    (.ok (), { destination := d', trail := t' })) : s.Completes σ nest parameter source d t d' := by
  rw [run_update_of_no_hooks hbefore hafter] at h
  rcases hguards : (Condition.allHold σ parameter source s.guards).run { trail := t }
    with ⟨e | holds, call⟩
  · rw [hguards] at h
    cases h
  · rw [hguards] at h
    cases holds with
    | false =>
      cases h
      refine .spared ?_
      rw [← Condition.run_allHold s.guards { trail := t }, hguards]
    | true =>
      dsimp only at h
      rcases hmembers : (s.assignMembers σ nest parameter source).run { destination := d, call }
        with ⟨r, a⟩
      rw [hmembers] at h
      cases h
      obtain ⟨turns, hall, hpasses⟩ := assignMembers_ok_iff.mp hmembers
      exact .assigned hguards hall
        (taken_of_passes hdistinct hslots (hall ▸ List.Sublist.refl _) hpasses)

theorem fails_of_error {e : MapError}
    (h : (s.update σ nest parameter source).run { destination := d, trail := t } =
      (.error e, { destination := d', trail := t' })) :
    s.Fails σ nest parameter source d t e d' := by
  rw [run_update_of_no_hooks hbefore hafter] at h
  rcases hguards : (Condition.allHold σ parameter source s.guards).run { trail := t }
    with ⟨e' | holds, call⟩
  · rw [hguards] at h
    cases h
    refine .unguarded ?_
    rw [← Condition.run_allHold s.guards { trail := t }, hguards]
  · rw [hguards] at h
    cases holds with
    | false => cases h
    | true =>
      dsimp only at h
      rcases hmembers : (s.assignMembers σ nest parameter source).run { destination := d, call }
        with ⟨r, a⟩
      rw [hmembers] at h
      cases h
      obtain ⟨turns, m, after, reached, call', hplanned, hpasses, hfails, rfl⟩ :=
        assignMembers_error_iff.mp hmembers
      have hturns : (turns.map Prod.fst).Sublist s.members := by
        rw [hplanned]
        exact List.sublist_append_left _ _
      have htaken := taken_of_passes hdistinct hslots hturns hpasses
      show s.Fails σ nest parameter source d t e reached.destination
      refine .stopped hguards hplanned htaken hfails fun n hn => ?_
      -- What comes later in the plan is not among the members before it.
      refine htaken.framed.others _ fun taken hmem => ?_
      rw [hplanned] at hdistinct
      exact (List.pairwise_append.mp hdistinct).2.2 _ (List.mem_map_of_mem hmem) n hn

end Specification

end RecordMap
