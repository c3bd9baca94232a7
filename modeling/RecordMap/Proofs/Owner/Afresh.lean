import RecordMap.Proofs.Nesting.Simulation
import RecordMap.Proofs.Owner.Consistent

/-!
# Nesting without memory

`Owner.nestAfresh` is nesting as it would be with no registry and no links: every
nested mapper is resolved and compiled again, on the spot.  It has no state, so
what it does depends on nothing that happened before.

The owner's own nesting simulates it from every consistent state
(`Owner.nest_simulates`).  The induction is on the nesting limit; a nested call
starts from the state its link was followed to, and so the statement is about all
states that extend a given one.
-/

namespace RecordMap

namespace Owner

/-- **Nesting afresh**: the mapper of the pairing is compiled and constructs from
the value. -/
def nestAfresh {ω : Type} (o : Owner) : (limit : Nat) → Nesting ω
  | 0 => fun _ _ _ => throw .nestingTooDeep
  | limit + 1 => fun p v handedOn =>
      match o.mapperOf p with
      | .ok m => m.constructAny o.schema (fun _ => o.nestAfresh limit) v handedOn
      | .error e => throw (nestedError e)

variable {ω ω' : Type} {o : Owner} {s s' : State} {id : Nat} {p : Pairing} {m : Mapper}
  {strict : Bool}

/-! ## §1. Simulation -/

/-- **The trail of a call tracks** one without memory: its state is consistent and
extends a given one, and its journal is the other with builds in between.  A
strict call is one of an owner that is still there. -/
structure Tracks (o : Owner) (strict : Bool) (s : State) (t : Trail State) (t' : Trail ω) :
    Prop where
  consistent : o.Consistent t.outside
  keeps : s.Extends t.outside
  alive : strict = true → t.outside.alive = true
  journal : o.Interleaved t'.journal t.journal

/-- How a call may end once its owner is gone. -/
structure Lapse (o : Owner) (strict : Bool) (s : State) (e : MapError) (t : Trail State) :
    Prop where
  lax : strict = false
  dropped : e = .ownerDropped
  consistent : o.Consistent t.outside
  keeps : s.Extends t.outside

theorem Tracks.keepsNotes :
    Trail.KeepsNotes (o.Tracks strict s : Trail State → Trail ω → Prop) := by
  intro t t' label h
  exact ⟨h.consistent, h.keeps, h.alive, h.journal.note label⟩

theorem Tracks.mono {t : Trail State} {t' : Trail ω} (h : o.Tracks strict s' t t')
    (hs : s.Extends s') : o.Tracks strict s t t' :=
  ⟨h.consistent, hs.trans h.keeps, h.alive, h.journal⟩

theorem Tracks.advance {t u : Trail State} {t' : Trail ω} (h : o.Tracks strict s t t')
    (hadv : o.Advances t u) : o.Tracks strict s u t' := by
  have hkeeps := h.keeps.trans hadv.keeps
  have hjournal := hadv.journal _ h.journal
  refine ⟨hadv.consistent, hkeeps, ?_, hjournal⟩
  intro hs
  rw [hadv.alive]
  exact h.alive hs

/-- A call can be taken up where a step has led. -/
theorem Tracks.resume {t : Trail State} {t' : Trail ω} (h : o.Tracks strict s t t') :
    o.Tracks strict t.outside t t' :=
  ⟨h.consistent, .refl _, h.alive, h.journal⟩

theorem run_mapper {t : Trail State} (h : mapper? t.outside id = some m) :
    (mapper id).run t = (.ok m, t) := by
  unfold mapper
  rw [Run.run_bind_ok (Run.run_get t), h]
  rfl

theorem run_mapper_of_missing {t : Trail State} (h : mapper? t.outside id = none) :
    (mapper id).run t = (.error .ownerDropped, t) := by
  unfold mapper
  rw [Run.run_bind_ok (Run.run_get t), h]
  rfl

theorem nestAfresh_of_ok {limit : Nat} (h : o.mapperOf p = .ok m) (v : Value)
    (handedOn : Option Value) :
    (o.nestAfresh (limit + 1) p v handedOn : Run (Trail ω) Value) =
      m.constructAny o.schema (fun _ => o.nestAfresh limit) v handedOn := by
  rw [nestAfresh]
  simp only [h]

theorem nestAfresh_of_error {limit : Nat} {e : BuildError} (h : o.mapperOf p = .error e)
    (v : Value) (handedOn : Option Value) :
    (o.nestAfresh (limit + 1) p v handedOn : Run (Trail ω) Value) = throw (nestedError e) := by
  rw [nestAfresh]
  simp only [h]

/-- **Links and registry are transparent**: for every member of every instance, the
owner's nesting does what nesting afresh does, to the same limit. -/
theorem nest_simulates (limit : Nat) {i : Nat} (hm : mapper? s id = some m)
    (hnests : m.spec.NestsAt i p) :
    Nesting.Simulates (o.Tracks strict s : Trail State → Trail ω → Prop) (o.Lapse strict s)
      (o.nest limit id i) (o.nestAfresh limit) p := by
  -- A nested call starts from the state in which its own link was followed, so the
  -- state to extend is generalized along with the member.
  induction limit generalizing s id i m p with
  | zero => exact fun v handedOn => .throw _
  | succ limit ih =>
    intro v handedOn t t' ht
    obtain ⟨hadv, hres⟩ := follow_spec ht.consistent (ht.keeps id m hm) hnests
    have hnest : (o.nest (limit + 1) id i p v handedOn).run t =
        (o.follow (id, i) p >>= fun child => mapper child >>= fun m =>
          m.constructAny o.schema (o.nest limit child) v handedOn).run t := rfl
    rw [hnest]
    rcases hfollow : (o.follow (id, i) p).run t with ⟨e | child, t₁⟩
    -- No instance: the owner is gone, or the pairing comes to an error.
    · rw [hfollow] at hadv hres
      have htrack := ht.advance hadv
      rw [Run.run_bind_error hfollow]
      rcases hres with ⟨hdropped, rfl⟩ | ⟨b, hb, rfl⟩
      · have hlax : strict = false := by
          cases strict with
          | false => rfl
          | true =>
            rw [ht.alive rfl] at hdropped
            cases hdropped
        exact .inl ⟨_, rfl, hlax, rfl, htrack.consistent, htrack.keeps⟩
      · rw [nestAfresh_of_error hb]
        exact .inr ⟨rfl, htrack⟩
    -- An instance, whichever way it was found, is the mapper of the pairing.
    · rw [hfollow] at hadv hres
      have htrack := ht.advance hadv
      obtain ⟨child', hchild, hof⟩ := hres
      rw [Run.run_bind_ok hfollow, Run.run_bind_ok (run_mapper hchild), nestAfresh_of_ok hof]
      have hsim := child'.simulates_constructAny (σ := o.schema) Tracks.keepsNotes
        (fun j q hq => ih hchild hq) v handedOn t₁ t' htrack.resume
      rcases hsim with ⟨e, hrun, he⟩ | ⟨hrun, hu⟩
      · exact .inl ⟨e, hrun, he.lax, he.dropped, he.consistent, htrack.keeps.trans he.keeps⟩
      · exact .inr ⟨hrun, hu.mono htrack.keeps⟩

/-! ## §2. Limits -/

/-- **A higher limit only goes further**: the result is the same unless the lower
one was exceeded. -/
theorem nestAfresh_simulates {limit limit' : Nat} (h : limit ≤ limit') (p : Pairing) :
    Nesting.Simulates (fun (_ : Trail ω) (_ : Trail ω') => True)
      (fun e _ => e = .nestingTooDeep ∧ limit < limit') (o.nestAfresh limit) (o.nestAfresh limit')
      p := by
  induction limit generalizing limit' p with
  | zero =>
    intro v handedOn t t' _
    cases limit' with
    | zero => exact .inr ⟨rfl, trivial⟩
    | succ k => exact .inl ⟨_, rfl, rfl, by omega⟩
  | succ limit ih =>
    obtain ⟨k, rfl⟩ : ∃ k, limit' = k + 1 := ⟨limit' - 1, by omega⟩
    intro v handedOn
    cases hof : o.mapperOf p with
    | error e =>
      rw [nestAfresh_of_error hof, nestAfresh_of_error hof]
      exact .throw _
    | ok m =>
      rw [nestAfresh_of_ok hof, nestAfresh_of_ok hof]
      have hlt : limit + 1 < k + 1 ↔ limit < k := by omega
      simp only [hlt]
      exact m.simulates_constructAny (fun _ _ _ _ => trivial)
        (fun _ q _ => ih (by omega) q) v handedOn

end Owner

end RecordMap
