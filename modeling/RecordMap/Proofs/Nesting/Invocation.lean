import RecordMap.Owner.Invocation
import RecordMap.Proofs.Nesting.Simulation

/-!
# Invocations over handlers

`Mapper.invoke` is an invocation of a mapper over any handlers for its nested
members.  Two families that simulate each other give outcomes that match
(`Mapper.invoke_matches`).

Two kinds of handlers say what a call owes to the calls nested in it.  One answers
out of hand, whatever the state (`Nesting.answering`).  The other watches a handler
and records its first failure (`Nesting.recording`): what it has recorded is what
the caller gets (`Mapper.failure_of_recording`).
-/

namespace RecordMap

/-! ## §1. Invocations -/

/-- The error of an outcome. -/
def Outcome.failure? : Outcome → Option MapError
  | constructed _ => none
  | failed e => some e
  | updated _ failure => failure

section

variable {ω ω' : Type}

/-- What comes of a run that constructs. -/
def Outcome.constructing (x : Run (Trail ω) (Option Value)) (t : Trail ω) : Outcome × Trail ω :=
  (ofConstruct (x.run t).1, (x.run t).2)

/-- What comes of a run that updates a destination. -/
def Outcome.updating (destination : Value) (x : Run (Specification.Updating ω) Unit)
    (t : Trail ω) : Outcome × Trail ω :=
  let (r, u) := x.run { destination, trail := t }
  (ofUpdate u.destination r, u.trail)

/-- **Invoking a mapper** with handlers for its nested members. -/
def Mapper.invoke (σ : Schema) (m : Mapper) (nest : Nat → Nesting ω) (i : Invocation)
    (t : Trail ω) : Outcome × Trail ω :=
  match i with
  | .construct s => Outcome.constructing (some <$> m.construct σ nest s) t
  | .constructWith s p => Outcome.constructing (some <$> m.constructWith σ nest s p) t
  | .constructOption s => Outcome.constructing (m.constructOption σ nest s) t
  | .constructAny s p => Outcome.constructing (some <$> m.constructAny σ nest s p) t
  | .update s d => Outcome.updating d (m.update σ nest s) t
  | .updateWith s p d => Outcome.updating d (m.updateWith σ nest s p) t
  | .updateOption s d => Outcome.updating d (m.updateOption σ nest s) t

variable {R : Trail ω → Trail ω' → Prop} {esc : MapError → Trail ω → Prop} {t : Trail ω}
  {t' : Trail ω'}

/-- Two outcomes with their trails: the same, or the first is an escape. -/
def Outcome.Matches (R : Trail ω → Trail ω' → Prop) (esc : MapError → Trail ω → Prop)
    (a : Outcome × Trail ω) (b : Outcome × Trail ω') : Prop :=
  (∃ e, a.1.failure? = some e ∧ esc e a.2) ∨ (a.1 = b.1 ∧ R a.2 b.2)

theorem Outcome.matches_constructing {x : Run (Trail ω) (Option Value)}
    {y : Run (Trail ω') (Option Value)} (h : Run.Simulates R esc x y) (ht : R t t') :
    Matches R esc (constructing x t) (constructing y t') := by
  rcases h t t' ht with ⟨e, hrun, he⟩ | ⟨hrun, hu⟩
  · refine .inl ⟨e, ?_, he⟩
    show (ofConstruct (x.run t).1).failure? = some e
    rw [hrun]
    rfl
  · refine .inr ⟨?_, hu⟩
    show ofConstruct _ = ofConstruct _
    rw [hrun]

theorem Outcome.matches_updating {x : Run (Specification.Updating ω) Unit}
    {y : Run (Specification.Updating ω') Unit}
    (h : Run.Simulates (Specification.Updating.Related R) (Specification.Updating.Escape esc) x y)
    (d : Value) (ht : R t t') :
    Matches R esc (updating d x t) (updating d y t') := by
  rcases h { destination := d, trail := t } { destination := d, trail := t' } ⟨rfl, ht⟩ with
    ⟨e, hrun, he⟩ | ⟨hrun, hu⟩
  · refine .inl ⟨e, ?_, he⟩
    show (ofUpdate _ (x.run { destination := d, trail := t }).1).failure? = some e
    rw [hrun]
    rfl
  · refine .inr ⟨?_, hu.2⟩
    show ofUpdate (x.run _).2.destination (x.run _).1 = ofUpdate (y.run _).2.destination (y.run _).1
    rw [hrun, hu.1]

/-- **An invocation over two families of handlers.** -/
theorem Mapper.invoke_matches {σ : Schema} (m : Mapper) {nest : Nat → Nesting ω}
    {nest' : Nat → Nesting ω'} (hR : Trail.KeepsNotes R)
    (hnest : ∀ i p, m.spec.NestsAt i p → Nesting.Simulates R esc (nest i) (nest' i) p)
    (i : Invocation) (ht : R t t') :
    Outcome.Matches R esc (m.invoke σ nest i t) (m.invoke σ nest' i t') := by
  have hconstruct := fun s => Run.Simulates.map some (m.simulates_construct (σ := σ) hR hnest s)
  have hupdate := fun s => m.simulates_update (σ := σ) hR hnest s
  cases i with
  | construct s => exact Outcome.matches_constructing (hconstruct s) ht
  | constructWith s p =>
    exact Outcome.matches_constructing (.map some (m.simulates_constructWith hR hnest s p)) ht
  | constructOption s =>
    refine Outcome.matches_constructing ?_ ht
    cases s with
    | some s => exact hconstruct s
    | none =>
      -- Without a source nothing runs, and so nothing is nested.
      unfold Mapper.constructOption
      dsimp only
      split
      · exact .pure _
      · exact .pure none
  | constructAny s p =>
    exact Outcome.matches_constructing (.map some (m.simulates_constructAny hR hnest s p)) ht
  | update s d => exact Outcome.matches_updating (hupdate s) d ht
  | updateWith s p d =>
    exact Outcome.matches_updating (m.simulates_updateWith hR hnest s p) d ht
  | updateOption s d =>
    refine Outcome.matches_updating ?_ d ht
    cases s with
    | some s => exact hupdate s
    | none => exact .pure ()

end

/-! ## §2. Answers and records -/

section

variable {ω : Type} {σ : Schema}

/-- A handler that answers out of hand. -/
def Nesting.answering (f : Pairing → Value → Option Value → Except MapError Value) : Nesting ω :=
  fun p v handedOn => ExceptT.mk fun t => (f p v handedOn, t)

/-- **A handler under watch**: beside the trail it keeps the first of its failures. -/
def Nesting.recording (nest : Nesting ω) : Nesting (ω × Option MapError) :=
  fun p v handedOn => ExceptT.mk fun t =>
    match (nest p v handedOn).run { journal := t.journal, outside := t.outside.1 } with
    | (.ok w, u) => (.ok w, { journal := u.journal, outside := (u.outside, t.outside.2) })
    | (.error e, u) =>
        (.error e, { journal := u.journal, outside := (u.outside, t.outside.2.or (some e)) })

/-- The trail under watch, with nothing recorded so far. -/
def Trail.watched (t : Trail ω) : Trail (ω × Option MapError) :=
  { journal := t.journal, outside := (t.outside, none) }

theorem Nesting.run_recording_ok {nest : Nesting ω} {p : Pairing} {v w : Value}
    {handedOn : Option Value} {t : Trail (ω × Option MapError)} {u : Trail ω}
    (h : (nest p v handedOn).run { journal := t.journal, outside := t.outside.1 } = (.ok w, u)) :
    (nest.recording p v handedOn).run t =
      (.ok w, { journal := u.journal, outside := (u.outside, t.outside.2) }) := by
  rw [recording, ExceptT.run_mk, h]

theorem Nesting.run_recording_error {nest : Nesting ω} {p : Pairing} {v : Value} {e : MapError}
    {handedOn : Option Value} {t : Trail (ω × Option MapError)} {u : Trail ω}
    (h : (nest p v handedOn).run { journal := t.journal, outside := t.outside.1 } = (.error e, u)) :
    (nest.recording p v handedOn).run t =
      (.error e, { journal := u.journal, outside := (u.outside, t.outside.2.or (some e)) }) := by
  rw [recording, ExceptT.run_mk, h]

/-- Being watched makes no difference to a handler. -/
theorem Nesting.simulates_recording (nest : Nesting ω) (p : Pairing) :
    Nesting.Simulates (fun t t' => t.journal = t'.journal ∧ t.outside.1 = t'.outside)
      (fun _ _ => False) nest.recording nest p := by
  rintro v handedOn t ⟨j, w⟩ ⟨rfl, rfl⟩
  rcases hrun : (nest p v handedOn).run { journal := t.journal, outside := t.outside.1 } with
    ⟨e | out, u⟩
  · rw [run_recording_error hrun]
    exact .inr ⟨rfl, rfl, rfl⟩
  · rw [run_recording_ok hrun]
    exact .inr ⟨rfl, rfl, rfl⟩

/-- From a trail with nothing recorded, the watched handler goes on with nothing
recorded or fails with what it records. -/
theorem Nesting.simulates_recording_first (nest : Nesting ω) (p : Pairing) :
    Nesting.Simulates (fun t t' => t = t'.watched) (fun e t => t.outside.2 = some e)
      nest.recording nest p := by
  rintro v handedOn _ t rfl
  rcases hrun : (nest p v handedOn).run t with ⟨e | out, u⟩
  · rw [run_recording_error (t := t.watched) hrun]
    exact .inl ⟨e, rfl, rfl⟩
  · rw [run_recording_ok (t := t.watched) hrun]
    exact .inr ⟨rfl, rfl⟩

/-- **The failure of a nested mapper is the failure of the call**: what the handlers
of an invocation record is what its caller gets. -/
theorem Mapper.failure_of_recording (m : Mapper) (nest : Nat → Nesting ω) (i : Invocation)
    (t : Trail ω) {e : MapError}
    (h : (m.invoke σ (fun j => (nest j).recording) i t.watched).2.outside.2 = some e) :
    (m.invoke σ nest i t).1.failure? = some e := by
  have hkeeps : Trail.KeepsNotes fun (t : Trail (ω × Option MapError)) (t' : Trail ω) =>
      t.journal = t'.journal ∧ t.outside.1 = t'.outside := by
    intro t t' label ht
    exact ⟨congrArg (·.enter label) ht.1, ht.2⟩
  have hsame := m.invoke_matches (σ := σ) hkeeps (fun j p _ => (nest j).simulates_recording p) i
    (⟨rfl, rfl⟩ : t.watched.journal = t.journal ∧ t.watched.outside.1 = t.outside)
  have hnotes : Trail.KeepsNotes fun (t : Trail (ω × Option MapError)) t' => t = t'.watched := by
    rintro _ t label rfl
    rfl
  have hfirst := m.invoke_matches (σ := σ) hnotes
    (fun j p _ => (nest j).simulates_recording_first p) i (rfl : t.watched = t.watched)
  -- The watched invocation has the outcome of the other, and fails with its record.
  have houtcome : (m.invoke σ (fun j => (nest j).recording) i t.watched).1 =
      (m.invoke σ nest i t).1 := by
    rcases hsame with ⟨_, _, hno⟩ | ⟨heq, _⟩
    · exact hno.elim
    · exact heq
  rcases hfirst with ⟨e', hfailure, hseen⟩ | ⟨_, hnone⟩
  · rw [← houtcome, hfailure, ← hseen, h]
  · rw [hnone] at h
    cases h

/-! ## §3. The conversion around a nested mapper -/

/-- **A conversion that nests only passes on**: all that happens to the call is what
the handler does to it, and neither parameter nor scratch has a part in it. -/
theorem Conversion.simulates_around {ω' : Type} {I : Call ω → Call ω' → Prop}
    {esc : MapError → Call ω → Prop} {nest : Nesting ω} {nest' : Nesting ω'} {p : Pairing}
    {parameter parameter' handedOn handedOn' : Option Value} {c : Conversion} (hp : p ∈ c.pairings)
    (h : ∀ v, Run.Simulates I esc (Call.onTrail (nest p v handedOn))
      (Call.onTrail (nest' p v handedOn'))) (v : Value) :
    Run.Simulates I esc (c.run σ parameter handedOn nest v)
      (c.run σ parameter' handedOn' nest' v) := by
  -- Trees that nest have no callbacks: their leaf is the nested mapper.
  refine c.simulates_leaves (fun k hk => ?_) (fun q hq => ?_) v
  · rw [Conversion.converters_of_pairings (List.ne_nil_of_mem hp)] at hk
    cases hk
  · rw [← Conversion.pairings_unique hp hq]
    exact h

end

end RecordMap
