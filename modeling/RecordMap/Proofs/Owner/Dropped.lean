import RecordMap.Proofs.Nesting.Retracing
import RecordMap.Proofs.Owner.Slots
import RecordMap.Proofs.Owner.Termination

/-!
# Mappers that outlive their owner

A mapper can be used after its owner is dropped.  A call of it then comes to just what it
would have come to with the owner still there, or it needs a slot that was never filled,
and fails for that (`Owner.held_after_drop`).

A call that succeeded while the owner was there has filled all the slots it needs.  Slots
stay filled, so when the call is made again it finds the same instances in them, and
retraces the first one (`Owner.invoke_retraced`).
-/

namespace RecordMap

-- Powers are the built-in ones, whichever library is in scope.
attribute [local instance (high)] instPowNat

namespace Owner

variable {o : Owner} {s : State} {id : Nat} {m : Mapper} {t : Trail State} {i : Invocation}

/-! ## §1. Calls that are made again -/

/-- A link is followed again to where it was followed before. -/
theorem follow_retraces (o : Owner) (s : State) (member : Nat × Nat) (p : Pairing) :
    Trail.Retraces (·.KeptIn s) (s.KeptIn ·) (o.follow member p) (o.follow member p) := by
  constructor
  case bounded =>
    intro t ht
    exact (keptIn_follow t member p).trans ht
  case achieves =>
    intro t u child t' hu ht' hrun
    have hlink := ht'.slots member child (lookup_of_follow hrun)
    exact ⟨u, run_follow_of_linked (hu.slots member child hlink), hu⟩

theorem mapper_retraces (s : State) (id : Nat) :
    Trail.Retraces (·.KeptIn s) (s.KeptIn ·) (mapper id) (mapper id) := by
  have hrun : ∀ t, ((mapper id).run t).2 = t := by
    intro t
    cases hm : mapper? t.outside id with
    | some m => rw [run_mapper hm]
    | none => rw [run_mapper_of_missing hm]
  constructor
  case bounded =>
    intro t ht
    rw [hrun] at ht
    exact ht
  case achieves =>
    intro t u m t' hu ht' hok
    cases hm : mapper? t.outside id with
    | none =>
      rw [run_mapper_of_missing hm] at hok
      cases hok
    | some m' =>
      rw [run_mapper hm] at hok
      cases hok
      have hlater := hu.instances id m (ht'.instances id m hm)
      exact ⟨u, run_mapper hlater, hu⟩

/-- **A nested call that is made again**, to the same limit: it is the same call if the
state that the first one led to is kept. -/
theorem nest_retraces (o : Owner) (s : State) (limit id i : Nat) (p : Pairing) :
    Nesting.Retraces (·.KeptIn s) (s.KeptIn ·) (o.nest limit id i) (o.nest limit id i) p := by
  induction limit generalizing id i p with
  | zero => exact fun v q => .throw _ _
  | succ limit ih =>
    intro v q
    unfold nest
    refine (follow_retraces o s (id, i) p).bind fun child => ?_
    refine (mapper_retraces s child).bind fun m => ?_
    exact m.retraces_constructAny (fun j p' _ => ih child j p') v q

/-- **An invocation that is made again**, after it succeeded, comes to the same: the
state it led to needs to be kept, and nothing more. -/
theorem invoke_retraced {u : Trail State} (hsuccess : (o.invoke id i t).1.failure? = none)
    (hkept : (o.invoke id i t).2.outside.KeptIn u.outside) :
    (o.invoke id i u).1 = (o.invoke id i t).1 := by
  have hgrown := (growth_keptIn o).invoke t id i
  cases hm : mapper? t.outside id with
  | none =>
    rw [invoke_of_missing hm] at hsuccess
    unfold lost at hsuccess
    cases i <;> cases hsuccess
  | some m =>
    have hm' := hkept.instances id m (hgrown.instances id m hm)
    rw [invoke_eq hm] at hsuccess hkept ⊢
    rw [invoke_eq hm']
    have hnest := fun j p (_ : m.spec.NestsAt j p) => nest_retraces o
      (m.invoke o.schema (o.nest o.nestingLimit id) i t).2.outside o.nestingLimit id j p
    exact (m.invoke_retraces hnest hsuccess (State.KeptIn.refl _) hkept).1

/-! ## §2. Calls after the drop -/

/-- **An operation that calls an instance**, and what comes of the call. -/
inductive Calls (o : Owner) (s : State) : Operation → Nat → Invocation → Outcome → Prop where
  | held (id : Nat) (i : Invocation) :
      Calls o s (.invoke id i) id i (o.invoke id i { outside := s }).1
  | requested {p : Pairing} {id : Nat} {t : Trail State}
      (found : o.request p { outside := s } = (.ok id, t)) (i : Invocation) :
      Calls o s (.call p i) id i (o.invoke id i t).1

/-- A call that succeeded comes to the same in any state that is reached later. -/
theorem Calls.again {op : Operation} {r : Outcome} (h : o.Calls s op id i r)
    (hsuccess : r.failure? = none) (hkept : (o.perform s op).KeptIn t.outside) :
    (o.invoke id i t).1 = r := by
  cases h with
  | held id i => exact invoke_retraced hsuccess hkept
  | @requested p id t' found i =>
    have hcall : o.perform s (.call p i) = (o.invoke id i t').2.outside := by
      show (o.call p i { outside := s }).2.outside = _
      unfold call
      rw [found]
    rw [hcall] at hkept
    exact invoke_retraced hsuccess hkept

/-- **What comes of an invocation**, whether its owner is there or not, compared to one of
an owner that is there: the same, or the loss of the owner. -/
theorem invoke_or_lapse {s' : State} (h : o.Consistent s) (hm : mapper? s id = some m)
    (h' : o.Consistent s') (halive : s'.alive = true) (hm' : mapper? s' id = some m)
    (i : Invocation) (j : Journal) :
    (o.invoke id i { journal := j, outside := s }).1 =
        (o.invoke id i { journal := j, outside := s' }).1 ∨
      (o.invoke id i { journal := j, outside := s }).1.failure? = some .ownerDropped := by
  -- Both are compared to the invocation without memory.
  have htracks : o.Tracks false s { journal := j, outside := s }
      ({ journal := j, outside := () } : Trail Unit) :=
    tracks_start (t := { journal := j, outside := s }) h (by simp)
  have htracks' : o.Tracks true s' { journal := j, outside := s' }
      ({ journal := j, outside := () } : Trail Unit) :=
    tracks_start (t := { journal := j, outside := s' }) h' fun _ => halive
  have hlax := invoke_matches (t := { journal := j, outside := s }) hm htracks i
  have hstrict := invoke_matches (t := { journal := j, outside := s' }) hm' htracks' i
  rcases hstrict with ⟨_, _, hlapse⟩ | ⟨halike, _⟩
  · cases hlapse.lax
  · rcases hlax with ⟨e, hfailure, hlapse⟩ | ⟨hsame, _⟩
    · rw [hlapse.dropped] at hfailure
      exact .inr hfailure
    · exact .inl (hsame.trans halike.symm)

/-- **A held mapper after its owner is dropped.**  For every owner, after any operations,
and for every instance that is there when the owner is dropped:

1. a later call comes to what the same call comes to with the owner still there, after
   whatever operations, or it fails for the loss of the owner;
2. a call that succeeded before the drop comes to the same again.

At any time each filled slot belongs to an instance, and the request for the pairing
nested there gives the very instance in it, and builds nothing.  This takes an initial
size of the registry that a machine word has a power of two for. -/
theorem held_after_drop (o : Owner) {before : List Operation} (hbefore : .drop ∉ before)
    (hm : mapper? (o.after before) id = some m) (since : List Operation) :
    let gone := o.after (before ++ .drop :: since)
    (∀ i j since', .drop ∉ since' →
      let r := (o.invoke id i { journal := j, outside := gone }).1
      r = (o.invoke id i { journal := j, outside := o.after (before ++ since') }).1 ∨
        r.failure? = some .ownerDropped) ∧
    (∀ earlier op later i r j, before = earlier ++ op :: later →
      o.Calls (o.after earlier) op id i r → r.failure? = none →
        (o.invoke id i { journal := j, outside := gone }).1 = r) ∧
    (o.options.initialSize ≤ 2 ^ (63 : Nat) → ∀ ops id i child,
      let s := o.after ops
      s.links.lookup (id, i) = some child →
        ∃ m, mapper? s id = some m ∧ (∃ p, m.spec.NestsAt i p) ∧
          ∀ p, m.spec.NestsAt i p → ∀ j,
            (o.requestNested p).run { journal := j, outside := s } = (.ok child,
              { journal := j, outside := { s with registry := s.registry.count 1 0 } })) := by
  intro gone
  have hgone : (o.after before).KeptIn gone := keptIn_after before (.drop :: since)
  refine ⟨?_, ?_, ?_⟩
  · intro i j since' hsince'
    have hops : .drop ∉ before ++ since' := by
      intro hmem
      rcases List.mem_append.mp hmem with h | h
      · exact hbefore h
      · exact hsince' h
    have hthere := (keptIn_after (o := o) before since').instances id m hm
    exact invoke_or_lapse (consistent_after o _) (hgone.instances id m hm)
      (consistent_after o _) (alive_after hops) hthere i j
  · rintro earlier op later i r j rfl hcalls hsuccess
    refine hcalls.again hsuccess ?_
    have hsplit : gone = (later ++ .drop :: since).foldl o.perform
        (o.perform (o.after earlier) op) := by
      show o.after (earlier ++ op :: later ++ .drop :: since) = _
      rw [List.append_assoc, after_append]
      rfl
    rw [hsplit]
    exact (grew_operations _ _).kept
  · intro hoptions ops id i child s hlink
    have hslotted := slotted_after hoptions ops
    obtain ⟨m, p, c, hm, hnests, _⟩ := hslotted.filled id i child hlink
    refine ⟨m, hm, ⟨p, hnests⟩, fun q hq j => ?_⟩
    rw [run_requestNested, request_of_slot hslotted hm hq hlink j]
    rfl

/-- The copy of a node whose next node has been copied before is made again when the owner
is dropped.  Without that slot it fails. -/
theorem held_after_drop_node :
    let nodes : Pairing := ⟨.record "Node", .record "Copy", none⟩
    let node : Value := .record "Node" [.present (.record "Node" [.absent (.record "Node")])]
    let copy : Value := .record "Copy" [.present (.record "Copy" [.absent (.record "Copy")])]
    let before : List Operation := [.request nodes, .invoke 0 (.construct node)]
    let s := nodesOwner.after before
    .drop ∉ before ∧
      mapper? s 0 = some ⟨{ source := "Node", destination := "Copy", members := [nextPlan] }⟩ ∧
      (nodesOwner.invoke 0 (.construct node) { outside := nodesOwner.after (before ++ [.drop]) }).1 =
        .constructed (some copy) ∧
      (nodesOwner.invoke 0 (.construct node)
        { outside := nodesOwner.after [.request nodes, .drop] }).1 = .failed .ownerDropped ∧
      nodesOwner.options.initialSize ≤ 2 ^ (63 : Nat) ∧ s.links.lookup (0, 0) = some 0 ∧
      ((nodesOwner.requestNested { nodes with profile := some "deep" }).run { outside := s }).1 =
        .ok 0 := by
  intro nodes node copy before s
  have hbefore : .drop ∉ before := by simp [before]
  have hm : mapper? s 0 =
      some ⟨{ source := "Node", destination := "Copy", members := [nextPlan] }⟩ :=
    (keptIn_after [.request nodes] [.invoke 0 (.construct node)]).instances 0 _
      (mapper?_after_request compile_nodeCopy)
  have hfirst : (nodesOwner.invoke 0 (.construct node)
      { outside := nodesOwner.after [.request nodes] }).1 = .constructed (some copy) := by
    with_unfolding_all rfl
  have hnever : (nodesOwner.invoke 0 (.construct node)
      { outside := nodesOwner.after [.request nodes, .drop] }).1 = .failed .ownerDropped := by
    with_unfolding_all rfl
  have hsize : nodesOwner.options.initialSize ≤ 2 ^ (63 : Nat) := by decide
  have hfilled : s.links.lookup (0, 0) = some 0 := by
    decide +kernel
  obtain ⟨-, hagain, hslots⟩ := held_after_drop nodesOwner hbefore hm []
  have hsuccess : (nodesOwner.invoke 0 (.construct node)
      { outside := nodesOwner.after [.request nodes] }).1.failure? = none := by
    rw [hfirst]
    rfl
  have hlater := hagain [.request nodes] _ [] (.construct node) _ {} rfl (.held 0 _) hsuccess
  obtain ⟨m, hm', -, hrequest⟩ := hslots hsize before 0 0 0 hfilled
  cases hm.symm.trans hm'
  have hnests : Specification.NestsAt
      { source := "Node", destination := "Copy", members := [nextPlan] } 0
      { nodes with profile := some "deep" } :=
    ⟨nextPlan, List.mem_singleton.mpr rfl, rfl, _, _, _, rfl, List.mem_singleton.mpr rfl⟩
  refine ⟨hbefore, hm, hlater.trans hfirst, hnever, hsize, hfilled, ?_⟩
  rw [hrequest _ hnests {}]

end Owner

end RecordMap
