import RecordMap.Proofs.Mapper.Performs
import RecordMap.Proofs.Nesting.Invocation

/-!
# Attended calls

A call shares one journal with the calls nested in it.  To tell its own callbacks from
theirs its handlers are *attended*: when a handler returns, it is put on record which
entries the call itself has made so far, and where the journal stands
(`Nesting.attended`).  The own entries are those on record, and those made since
(`Trail.own`).

Attending a handler makes no difference to what it does (`Nesting.simulates_attended`),
and leaves the own entries as they are (`Nesting.quiet_attended`).
-/

namespace RecordMap

variable {ω : Type}

/-! ## §1. Own entries -/

/-- What lies outside of a call, with a record of the call's own entries. -/
structure Attended (ω : Type) where
  outside : ω
  /-- The own entries made before the last nested call. -/
  earlier : List (Option String) := []
  /-- How many entries the journal had when the last nested call returned. -/
  resumed : Nat

/-- **The own entries**: those made before the last nested call, and those made since
it returned. -/
def Trail.own (t : Trail (Attended ω)) : List (Option String) :=
  t.outside.earlier ++ t.journal.entries.drop t.outside.resumed

/-- A trail as a call finds it; none of its entries is the call's own. -/
def Trail.attended (t : Trail ω) : Trail (Attended ω) where
  journal := t.journal
  outside := { outside := t.outside, resumed := t.journal.entries.length }

/-- **A handler that is attended.** -/
def Nesting.attended (nest : Nesting ω) : Nesting (Attended ω) := fun p v handedOn =>
  Run.zoom (fun t => ({ journal := t.journal, outside := t.outside.outside } : Trail ω))
    (fun t u => {
      journal := u.journal
      outside := {
        outside := u.outside, earlier := t.own, resumed := u.journal.entries.length } })
    (nest p v handedOn)

/-- A handler that only adds to the journal. -/
def Nesting.Extends (nest : Nesting ω) : Prop :=
  ∀ p v handedOn t, t.journal.entries <+: ((nest p v handedOn).run t).2.journal.entries

/-- **The call that started with a journal has its own entries**, among all that were
made since. -/
structure Trail.Owns (start : Journal) (t : Trail (Attended ω)) (es : List (Option String)) :
    Prop where
  own : t.own = es
  resumed : t.outside.resumed ≤ t.journal.entries.length
  since : ∃ made, t.journal.entries = start.entries ++ made ∧ es.Sublist made

theorem Trail.owns_attended (t : Trail ω) : Trail.Owns t.journal t.attended [] where
  own := List.drop_length
  resumed := le_refl _
  since := ⟨[], (List.append_nil _).symm, .slnil⟩

theorem Trail.tellsNotes_owns (start : Journal) :
    Trail.TellsNotes (Trail.Owns (ω := ω) start) := by
  intro t es label h
  obtain ⟨made, hmade, hsub⟩ := h.since
  constructor
  case own =>
    show t.outside.earlier ++ (t.journal.enter label).entries.drop t.outside.resumed = _
    rw [Journal.entries_enter, List.drop_append_of_le_length h.resumed, ← List.append_assoc,
      ← h.own]
    rfl
  case resumed =>
    show t.outside.resumed ≤ (t.journal.enter label).entries.length
    rw [Journal.entries_enter, List.length_append]
    exact h.resumed.trans (Nat.le_add_right _ _)
  case since =>
    refine ⟨made ++ [label], ?_, hsub.append (.refl _)⟩
    show (t.journal.enter label).entries = _
    rw [Journal.entries_enter, hmade, List.append_assoc]

/-! ## §2. Attended handlers -/

/-- A trail beside one with a record. -/
def Attended.Follows (t : Trail ω) (u : Trail (Attended ω)) : Prop :=
  u.journal = t.journal ∧ u.outside.outside = t.outside

theorem Attended.keepsNotes_follows : Trail.KeepsNotes (Attended.Follows (ω := ω)) := by
  intro t u label h
  exact ⟨congrArg (·.enter label) h.1, h.2⟩

/-- **Being attended makes no difference** to a handler. -/
theorem Nesting.simulates_attended (nest : Nesting ω) (p : Pairing) :
    Nesting.Simulates Attended.Follows (fun _ _ => False) nest nest.attended p := by
  intro v handedOn t u h
  have htrail : ({ journal := u.journal, outside := u.outside.outside } : Trail ω) = t := by
    rw [h.1, h.2]
  unfold attended
  rw [Run.run_zoom, htrail]
  exact .inr ⟨rfl, rfl, rfl⟩

/-- **A nested call leaves the own entries as they are.** -/
theorem Nesting.quiet_attended {nest : Nesting ω} (hextends : nest.Extends) (start : Journal) :
    nest.attended.Quiet (Trail.Owns start) := by
  intro p v handedOn t es h
  obtain ⟨made, hmade, hsub⟩ := h.since
  obtain ⟨nested, hnested⟩ :=
    hextends p v handedOn { journal := t.journal, outside := t.outside.outside }
  unfold attended
  rw [Run.run_zoom]
  constructor
  case own =>
    show t.own ++ List.drop _ _ = es
    rw [List.drop_length, List.append_nil, h.own]
  case resumed => exact le_refl _
  case since =>
    refine ⟨made ++ nested, ?_, hsub.trans (List.sublist_append_left _ _)⟩
    show Journal.entries _ = _
    rw [← hnested, hmade, List.append_assoc]

/-! ## §3. Handlers that add to the journal -/

/-- One trail beside itself, with a journal that extends another. -/
def Trail.Beyond (start : Journal) (t u : Trail ω) : Prop :=
  t = u ∧ start.entries <+: t.journal.entries

theorem Trail.keepsNotes_beyond (start : Journal) :
    Trail.KeepsNotes (Trail.Beyond (ω := ω) start) := by
  rintro t _ label ⟨rfl, hprefix⟩
  refine ⟨rfl, ?_⟩
  show start.entries <+: (t.journal.enter label).entries
  rw [Journal.entries_enter]
  exact hprefix.trans (List.prefix_append _ _)

/-- A run that only adds to the journal. -/
theorem Run.simulates_beyond {α : Type} {x : Run (Trail ω) α} (start : Journal)
    (h : ∀ t, t.journal.entries <+: (x.run t).2.journal.entries) :
    Run.Simulates (Trail.Beyond start) (fun _ _ => False) x x := by
  rintro t _ ⟨rfl, hprefix⟩
  exact .inr ⟨rfl, rfl, hprefix.trans (h t)⟩

/-- A construction only adds to the journal if its handlers do. -/
theorem Mapper.extends_constructAny {σ : Schema} (m : Mapper) {nest : Nat → Nesting ω}
    (hnest : ∀ j, (nest j).Extends) (v : Value) (q : Option Value) (t : Trail ω) :
    t.journal.entries <+: ((m.constructAny σ nest v q).run t).2.journal.entries := by
  have hsame := m.simulates_constructAny (σ := σ) (Trail.keepsNotes_beyond t.journal)
    (fun j p _ v q => Run.simulates_beyond t.journal (hnest j p v q)) v q
  exact (hsame.lockstep t t ⟨rfl, List.prefix_rfl⟩).2.2

end RecordMap
