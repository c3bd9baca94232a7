import RecordMap.Proofs.Nesting.Invocation
import RecordMap.Proofs.Owner.Afresh

/-!
# Runs of an owner

Invoking an instance is invoking its mapper over the links of its members
(`Owner.invoke_eq`); from a consistent state it comes to what it comes to over
handlers without memory (`Owner.invoke_matches`).

An owner is used through operations.  One operation keeps the state consistent and
all instances in it (`Owner.keeps_perform`); by induction so does any sequence of
them, and every state ever reached is consistent (`Owner.consistent_after`).
-/

namespace RecordMap

namespace Owner

variable {ω : Type} {o : Owner} {s s' : State} {id : Nat} {p : Pairing} {m : Mapper}
  {t : Trail State} {i : Invocation}

/-! ## §1. Invocations -/

/-- An instance is invoked over the links of its members. -/
theorem invoke_eq (h : mapper? t.outside id = some m) (i : Invocation) :
    o.invoke id i t = m.invoke o.schema (o.nest o.nestingLimit id) i t := by
  have hrun := run_mapper h
  cases i with
  | update s d => simp only [invoke, hrun]; rfl
  | updateWith s p d => simp only [invoke, hrun]; rfl
  | updateOption s d => simp only [invoke, hrun]; rfl
  | _ => simp only [invoke, Run.run_bind_ok hrun]; rfl

/-- The outcome of invoking an instance that there is not. -/
def lost (i : Invocation) : Outcome :=
  match i.destination? with
  | some d => .updated d (some .ownerDropped)
  | none => .failed .ownerDropped

theorem invoke_of_missing (h : mapper? t.outside id = none) (i : Invocation) :
    o.invoke id i t = (lost i, t) := by
  have hrun := run_mapper_of_missing h
  cases i with
  | update s d => simp only [invoke, hrun]; rfl
  | updateWith s p d => simp only [invoke, hrun]; rfl
  | updateOption s d => simp only [invoke, hrun]; rfl
  | _ => simp only [invoke, Run.run_bind_error hrun]; rfl

/-- **Invoking an instance** comes to what it comes to without memory, but for the
lapse of an owner that is gone. -/
theorem invoke_matches {strict : Bool} {t' : Trail ω} (hm : mapper? t.outside id = some m)
    (ht : o.Tracks strict t.outside t t') (i : Invocation) :
    Outcome.Matches (o.Tracks strict t.outside) (o.Lapse strict t.outside) (o.invoke id i t)
      (m.invoke o.schema (fun _ => o.nestAfresh o.nestingLimit) i t') := by
  rw [invoke_eq hm]
  exact m.invoke_matches Tracks.keepsNotes (fun j p hp => nest_simulates _ hm hp) i ht

/-! ## §2. Operations -/

/-- What a call of a pairing comes to: a request, then an invocation. -/
def call (o : Owner) (p : Pairing) (i : Invocation) (t : Trail State) :
    Except BuildError Outcome × Trail State :=
  match o.request p t with
  | (.ok id, t) => ((Except.ok (o.invoke id i t).1), (o.invoke id i t).2)
  | (.error e, t) => (.error e, t)

/-- One use of an owner. -/
inductive Operation where
  /-- Request the mapper of a pairing. -/
  | request (p : Pairing)
  /-- Look for the mapper of a pairing without building it. -/
  | tryRequest (p : Pairing)
  /-- Request the mapper of a pairing on behalf of a running one. -/
  | nested (p : Pairing)
  /-- Request the mapper of a pairing and invoke it. -/
  | call (p : Pairing) (i : Invocation)
  /-- Invoke an instance that is held. -/
  | invoke (id : Nat) (i : Invocation)
  /-- Let go of the owner. -/
  | drop

/-- The state an operation leaves. -/
def perform (o : Owner) (s : State) : Operation → State
  | .request p => (o.request p { outside := s }).2.outside
  | .tryRequest p => (o.tryRequest p s).2
  | .nested p => ((o.requestNested p).run { outside := s }).2.outside
  | .call p i => (o.call p i { outside := s }).2.outside
  | .invoke id i => (o.invoke id i { outside := s }).2.outside
  | .drop => drop s

/-- **The state after operations**, from a new owner on. -/
def after (o : Owner) (ops : List Operation) : State := ops.foldl o.perform o.start

/-- A state is kept by a step if the step leaves it consistent, with all its
instances, and does not let go of the owner. -/
structure Keeps (o : Owner) (s s' : State) : Prop where
  consistent : o.Consistent s'
  instances : s.Extends s'
  alive : s.alive = true → s'.alive = true

theorem Keeps.refl (h : o.Consistent s) : o.Keeps s s := ⟨h, .refl s, fun ha => ha⟩

theorem Keeps.trans {s'' : State} (h : o.Keeps s s') (h' : o.Keeps s' s'') : o.Keeps s s'' := by
  have hinstances := h.instances.trans h'.instances
  refine ⟨h'.consistent, hinstances, ?_⟩
  intro ha
  exact h'.alive (h.alive ha)

theorem Advances.toKeeps {t' : Trail State} (h : o.Advances t t') :
    o.Keeps t.outside t'.outside :=
  ⟨h.consistent, h.keeps, fun ha => h.alive.trans ha⟩

/-- Without a look at the journal, any journal is one without builds. -/
theorem interleaved_refl (o : Owner) (j : Journal) : o.Interleaved j j := by
  obtain ⟨labels⟩ := j
  induction labels with
  | nil => exact .start
  | cons label rest ih => exact ih.note label

theorem tracks_start {strict : Bool} (h : o.Consistent t.outside)
    (ha : strict = true → t.outside.alive = true) :
    o.Tracks strict t.outside t ({ journal := t.journal, outside := () } : Trail Unit) :=
  ⟨h, .refl _, ha, interleaved_refl o _⟩

theorem keeps_invoke (h : o.Consistent t.outside) (id : Nat) (i : Invocation) :
    o.Keeps t.outside (o.invoke id i t).2.outside := by
  cases hm : mapper? t.outside id with
  | none =>
    rw [invoke_of_missing hm]
    exact .refl h
  | some m =>
    -- A call may lapse once the owner is gone, and then still keeps the state.
    have hlax := invoke_matches hm
      (tracks_start h (by simp) : o.Tracks false t.outside t _) i
    have hkept : o.Consistent (o.invoke id i t).2.outside ∧
        t.outside.Extends (o.invoke id i t).2.outside := by
      rcases hlax with ⟨_, _, he⟩ | ⟨_, hu⟩
      · exact ⟨he.consistent, he.keeps⟩
      · exact ⟨hu.consistent, hu.keeps⟩
    refine ⟨hkept.1, hkept.2, fun ha => ?_⟩
    have hstart : o.Tracks true t.outside t ({ journal := t.journal, outside := () } : Trail Unit) :=
      tracks_start h fun _ => ha
    rcases invoke_matches hm hstart i with ⟨_, _, he⟩ | ⟨_, hstrict⟩
    · cases he.lax
    · exact hstrict.alive rfl

theorem keeps_call (h : o.Consistent t.outside) (p : Pairing) (i : Invocation) :
    o.Keeps t.outside (o.call p i t).2.outside := by
  have hrequest := (request_spec h p).1.toKeeps
  unfold call
  rcases hr : o.request p t with ⟨e | id, t'⟩
  · rw [hr] at hrequest
    exact hrequest
  · rw [hr] at hrequest
    exact hrequest.trans (keeps_invoke hrequest.consistent id i)

theorem keeps_tryRequest (h : o.Consistent s) (p : Pairing) :
    o.Keeps s (o.tryRequest p s).2 := by
  unfold tryRequest
  cases o.choose? p with
  | none => exact .refl h
  | some c =>
    exact ⟨h.setRegistry (h.registered.tryGet c.pairing), .refl s, fun ha => ha⟩

/-- **One operation** keeps the state, unless it is the last. -/
theorem keeps_perform (h : o.Consistent s) {op : Operation} (hop : op ≠ .drop) :
    o.Keeps s (o.perform s op) := by
  cases op with
  | request p => exact (request_spec (t := { outside := s }) h p).1.toKeeps
  | tryRequest p => exact keeps_tryRequest h p
  | nested p => exact (request_spec (t := { outside := s }) h p).1.toKeeps
  | call p i => exact keeps_call (t := { outside := s }) h p i
  | invoke id i => exact keeps_invoke (t := { outside := s }) h id i
  | drop => exact absurd rfl hop

theorem consistent_perform (h : o.Consistent s) (op : Operation) :
    o.Consistent (o.perform s op) := by
  cases op with
  | drop => exact ⟨h.compiled, h.registered, h.linked⟩
  | _ => exact (keeps_perform h (by simp)).consistent

/-- **Every state reached is consistent.** -/
theorem consistent_after (o : Owner) (ops : List Operation) : o.Consistent (o.after ops) := by
  unfold after
  -- By induction on the operations, from any consistent state.
  have hfold : ∀ s, o.Consistent s → o.Consistent (ops.foldl o.perform s) := by
    induction ops with
    | nil => exact fun s h => h
    | cons op rest ih => exact fun s h => ih _ (consistent_perform h op)
  exact hfold _ (consistent_start o)

/-- Operations other than the last keep the state they start from. -/
theorem keeps_operations {ops : List Operation} (h : o.Consistent s) (hops : .drop ∉ ops) :
    o.Keeps s (ops.foldl o.perform s) := by
  induction ops generalizing s with
  | nil => exact .refl h
  | cons op rest ih =>
    have hop : op ≠ .drop := by
      intro heq
      exact hops (by simp [heq])
    have hrest : .drop ∉ rest := by
      intro hmem
      exact hops (List.mem_cons_of_mem _ hmem)
    have hstep := keeps_perform h hop
    exact hstep.trans (ih hstep.consistent hrest)

theorem alive_after {ops : List Operation} (hops : .drop ∉ ops) : (o.after ops).alive = true :=
  (keeps_operations (consistent_start o) hops).alive rfl

end Owner

end RecordMap
