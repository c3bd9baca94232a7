import RecordMap.Proofs.Nesting.Confined
import RecordMap.Proofs.Owner.Indexed
import RecordMap.Proofs.Owner.Runs

/-!
# Tours

The nested calls made in the course of an invocation are recorded on a *tour*: what the
calls around each one were made with, and the pairing, the value and the parameter of
its own (`Visit`).

`Owner.visiting` is the nesting of an owner that enters every call it answers, and does
all else as the owner does.  So a tour has the outcome of the invocation it records, and
leaves the same journal and the same state (`Owner.tour_spec`).

What holds of every visit is shown call by call (`Owner.visiting_confined_succ`): the
call itself is of the wanted kind, and so is all that the mapper found for it does with
handlers one level further in.
-/

namespace RecordMap

/-- **A nested call**, as it is recorded. -/
structure Visit where
  /-- The sources of the calls it is nested in, that of its caller first. -/
  callers : List Value
  pairing : Pairing
  /-- The value to construct from. -/
  value : Value
  /-- The parameter handed on. -/
  parameter : Option Value

/-- A fault for want of a nested mapper. -/
def MapError.IsLoss : MapError → Prop
  | .ownerDropped | .nestedMapperMissing _ | .build _ => True
  | _ => False

namespace Owner

/-- The state of an owner with the nested calls made so far. -/
structure Tour where
  state : State
  visits : List Visit := []

namespace Tour

variable {α : Type}

/-- Enter a nested call. -/
def enter (v : Visit) : Run (Trail Tour) Unit :=
  modify fun t => { t with outside.visits := t.outside.visits ++ [v] }

/-- Run something on the state of the owner. -/
def onState (x : Run (Trail State) α) : Run (Trail Tour) α :=
  Run.zoom (fun t => ({ journal := t.journal, outside := t.outside.state } : Trail State))
    (fun t u => { journal := u.journal, outside := { t.outside with state := u.outside } }) x

end Tour

/-- **Nesting on tour**: every nested call is entered, and made as the owner makes it. -/
def visiting (o : Owner) : (limit : Nat) → (callers : List Value) → (id : Nat) → (member : Nat) →
    Nesting Tour
  | 0, callers, _, _ => fun p v q => do
      Tour.enter { callers, pairing := p, value := v, parameter := q }
      throw .nestingTooDeep
  | limit + 1, callers, id, member => fun p v q => do
      Tour.enter { callers, pairing := p, value := v, parameter := q }
      let child ← Tour.onState (o.follow (id, member) p)
      let m ← Tour.onState (mapper child)
      m.constructAny o.schema (o.visiting limit (v :: callers) child) v q

/-- **The tour of an invocation**: its outcome, and the trail with its nested calls. -/
def tour (o : Owner) (id : Nat) (i : Invocation) (t : Trail State) : Outcome × Trail Tour :=
  let start : Trail Tour := { journal := t.journal, outside := { state := t.outside } }
  match mapper? t.outside id with
  | some m => m.invoke o.schema (o.visiting o.nestingLimit i.source?.toList id) i start
  | none => (lost i, start)

variable {o : Owner} {s : State} {id : Nat} {p : Pairing} {m : Mapper} {t : Trail State}
  {i : Invocation} {α : Type}

/-! ## §1. A tour records and does nothing else -/

/-- The trail of an owner beside that of a tour. -/
def Tour.Follows (t : Trail State) (u : Trail Tour) : Prop :=
  u.journal = t.journal ∧ u.outside.state = t.outside

theorem Tour.keepsNotes_follows : Trail.KeepsNotes Tour.Follows := by
  intro t u label h
  exact ⟨congrArg (·.enter label) h.1, h.2⟩

theorem Tour.simulates_onState (x : Run (Trail State) α) :
    Run.Simulates Tour.Follows (fun _ _ => False) x (Tour.onState x) := by
  intro t u h
  have htrail : ({ journal := u.journal, outside := u.outside.state } : Trail State) = t := by
    rw [h.1, h.2]
  unfold onState
  rw [Run.run_zoom, htrail]
  exact .inr ⟨rfl, rfl, rfl⟩

/-- **Nesting on tour** does what the owner's nesting does. -/
theorem visiting_simulates (o : Owner) (limit : Nat) (callers : List Value) (id i : Nat) (p : Pairing) :
    Nesting.Simulates Tour.Follows (fun _ _ => False) (o.nest limit id i)
      (o.visiting limit callers id i) p := by
  induction limit generalizing callers id i p with
  | zero =>
    intro v q t u h
    exact .inr ⟨rfl, h⟩
  | succ limit ih =>
    intro v q t u h
    -- Once the call is entered, the two go on side by side.
    have hrest : Run.Simulates Tour.Follows (fun _ _ => False) (o.nest (limit + 1) id i p v q)
        (Tour.onState (o.follow (id, i) p) >>= fun child => Tour.onState (mapper child) >>= fun m =>
          m.constructAny o.schema (o.visiting limit (v :: callers) child) v q) := by
      refine (Tour.simulates_onState _).bind fun child => ?_
      refine (Tour.simulates_onState _).bind fun m => ?_
      exact m.simulates_constructAny Tour.keepsNotes_follows
        (fun j p' _ => ih (v :: callers) child j p') v q
    exact hrest t _ ⟨h.1, h.2⟩

/-- **A tour has the outcome of the invocation**, and leaves the same journal and the
same state. -/
theorem tour_spec (o : Owner) (id : Nat) (i : Invocation) (t : Trail State) :
    (o.tour id i t).1 = (o.invoke id i t).1 ∧
      Tour.Follows (o.invoke id i t).2 (o.tour id i t).2 := by
  unfold tour
  cases hm : mapper? t.outside id with
  | none =>
    rw [invoke_of_missing hm]
    exact ⟨rfl, rfl, rfl⟩
  | some m =>
    rw [invoke_eq hm]
    have hmatch := m.invoke_matches (σ := o.schema) Tour.keepsNotes_follows
      (fun j p _ => visiting_simulates o o.nestingLimit i.source?.toList id j p) i
      (⟨rfl, rfl⟩ : Tour.Follows t { journal := t.journal, outside := { state := t.outside } })
    rcases hmatch with ⟨_, _, hno⟩ | ⟨houtcome, hfollows⟩
    · exact hno.elim
    · exact ⟨houtcome.symm, hfollows⟩

/-! ## §2. What holds of every visit -/

/-- Every instance was compiled from a configuration of the owner. -/
def State.Compiled (o : Owner) (s : State) : Prop :=
  ∀ id m, mapper? s id = some m → ∃ c ∈ o.configs, (o.compile c).1 = .ok m

/-- **The visits of a tour** are of the wanted kind, and the instances are those of the
owner. -/
structure Tour.Over (o : Owner) (P : Visit → Prop) (u : Tour) : Prop where
  compiled : u.state.Compiled o
  visits : ∀ v ∈ u.visits, P v

theorem Served.compiled {r : Request} {reply : Reply} {s' : State} (hs : o.Served s r reply s')
    (h : s.Compiled o) : s'.Compiled o := by
  cases hs with
  | unknown _ | hit _ _ | missed _ _ _ | failed _ _ _ _ => exact h
  | built chosen _ _ compiles =>
    intro id m hm
    rcases mapper?_push_iff.mp hm with hold | ⟨-, rfl⟩
    · exact h id m hold
    · exact ⟨_, mem_of_choose? chosen, compiles⟩

/-- Following a link builds a mapper of the owner at most, and fails for want of one. -/
theorem ensures_follow {F : MapError → Prop} (hloss : ∀ e : MapError, e.IsLoss → F e)
    (member : Nat × Nat) (p : Pairing) :
    Run.Ensures (fun t => t.outside.Compiled o) (fun _ => True) F (o.follow member p) := by
  intro t ht
  cases hlink : t.outside.links.lookup member with
  | some child =>
    rw [run_follow_of_linked hlink]
    exact ⟨ht, trivial⟩
  | none =>
    cases halive : t.outside.alive with
    | false =>
      rw [run_follow_of_dropped hlink halive]
      exact ⟨ht, hloss _ trivial⟩
    | true =>
      rw [run_follow_of_unlinked hlink halive]
      have hrequest := (served_erased t p).compiled ht
      rcases hr : o.request p t with ⟨e | child, t'⟩
      · rw [hr] at hrequest
        refine ⟨hrequest, hloss _ ?_⟩
        cases e <;> exact trivial
      · rw [hr] at hrequest
        exact ⟨hrequest, trivial⟩

theorem ensures_mapper {F : MapError → Prop} (hloss : ∀ e : MapError, e.IsLoss → F e)
    (id : Nat) :
    Run.Ensures (fun t => t.outside.Compiled o)
      (fun m => ∃ c ∈ o.configs, (o.compile c).1 = .ok m) F (mapper id) := by
  intro t ht
  cases hm : mapper? t.outside id with
  | some m =>
    rw [run_mapper hm]
    exact ⟨ht, ht id m hm⟩
  | none =>
    rw [run_mapper_of_missing hm]
    exact ⟨ht, hloss _ trivial⟩

section

variable {P : Visit → Prop} {F : MapError → Prop}

theorem Tour.confined_enter {v : Visit} (h : P v) :
    Trail.Confined (Tour.Over o P) F (Tour.enter v) := by
  refine .modify fun u hu => ⟨hu.compiled, fun w hw => ?_⟩
  rcases List.mem_append.mp hw with hold | hnew
  · exact hu.visits w hold
  · rw [List.mem_singleton.mp hnew]
    exact h

/-- What is run on the state of the owner makes no visit. -/
theorem Tour.ensures_onState {Q : α → Prop} {x : Run (Trail State) α}
    (h : Run.Ensures (fun t => t.outside.Compiled o) Q F x) :
    Run.Ensures (fun t => Tour.Over o P t.outside) Q F (Tour.onState x) :=
  h.zoom (fun _ hu => hu.compiled) fun _ _ hu ht => ⟨ht, hu.visits⟩

/-- **One nested call**: it is of the wanted kind, and so is everything that the mapper
found for it does, with handlers one level further in. -/
theorem visiting_confined_succ {limit : Nat} {callers : List Value} {v : Value}
    {q : Option Value} (hloss : ∀ e : MapError, e.IsLoss → F e)
    (hvisit : P { callers, pairing := p, value := v, parameter := q })
    (hchild : ∀ c ∈ o.configs, ∀ m, (o.compile c).1 = .ok m → ∀ child,
      Trail.Confined (Tour.Over o P) F
        (m.constructAny o.schema (o.visiting limit (v :: callers) child) v q)) (id i : Nat) :
    Trail.Confined (Tour.Over o P) F (o.visiting (limit + 1) callers id i p v q) := by
  unfold visiting
  refine (Tour.confined_enter hvisit).bind fun _ _ => ?_
  refine (Tour.ensures_onState (ensures_follow hloss (id, i) p)).bind fun child _ => ?_
  refine (Tour.ensures_onState (ensures_mapper hloss child)).bind fun m hm => ?_
  obtain ⟨c, hc, hcompile⟩ := hm
  exact hchild c hc m hcompile child

end

end Owner

end RecordMap
