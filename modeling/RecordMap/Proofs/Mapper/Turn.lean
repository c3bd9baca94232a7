import RecordMap.Mapper
import RecordMap.Proofs.Run.Simulates

/-!
# The turns of members

Assigning a member is its *turn*, which settles whether the member gets a value and
which, followed by the change of that one member.  A turn runs on the call alone: it
sees the destination but cannot touch it.  So a run over members is a list of turns
(`MemberPlan.forM_assign_ok_iff`, `MemberPlan.forM_assign_error_iff`), and what it
leaves of the destination is the destination with the values of the turns laid over
it (`Passes.destination_eq`).
-/

namespace RecordMap

variable {ω : Type} {σ : Schema} {parameter handedOn : Option Value} {nest : Nesting ω}
  {recordName : String} {source : Value}

/-! ## §1. Turns -/

namespace MemberPlan

/-- **The turn of a member**: its value if its conditions hold, else none. -/
def turn (σ : Schema) (parameter handedOn : Option Value) (nest : Nesting ω)
    (recordName : String) (source : Value) (m : MemberPlan) (destination : Value) :
    Run (Call ω) (Option Value) := do
  if ← Condition.allHold σ parameter source m.conditions then
    let v ← m.value σ parameter handedOn nest recordName source destination
    some <$> Run.require (v.as? m.type) (.typeMismatch (σ.name m.type))
  else return none

/-- The destination once the member has had its turn. -/
def put (m : MemberPlan) (destination : Value) : Option Value → Value
  | some v => destination.setMember m.declaration v
  | none => destination

/-- The end of a turn: the value is put in its place, or the failure changes nothing. -/
def settle (m : MemberPlan) (destination : Value) :
    Except MapError (Option Value) × Call ω → Except MapError Unit × Assembly ω
  | (.ok o, call) => (.ok (), { destination := m.put destination o, call })
  | (.error e, call) => (.error e, { destination, call })

/-- **Assigning a member** is its turn, and then the change of that member. -/
theorem run_assign_eq (m : MemberPlan) (a : Assembly ω) :
    (m.assign σ parameter handedOn nest recordName source).run a =
      m.settle a.destination
        ((m.turn σ parameter handedOn nest recordName source a.destination).run a.call) := by
  obtain ⟨destination, call⟩ := a
  unfold assign turn
  rw [Run.run_bind, Run.run_bind]
  unfold Assembly.onCall
  rw [Run.run_zoom]
  -- The same conditions, then the same value, then the same check of its type.
  rcases (Condition.allHold σ parameter source m.conditions).run call with ⟨e | holds, call₁⟩
  · rfl
  · cases holds with
    | false => rfl
    | true =>
      dsimp only
      rw [if_pos rfl, if_pos rfl, Run.run_bind_ok (Run.run_get _), Run.run_bind, Run.run_bind,
        Run.run_zoom]
      rcases (m.value σ parameter handedOn nest recordName source destination).run call₁
        with ⟨e | v, call₂⟩
      · rfl
      · dsimp only
        unfold Value.assign? Value.as?
        split
        · rfl
        · rfl

end MemberPlan

/-! ## §2. Runs over members -/

/-- **Members in turn**: from one assembly to another, with the members that have had
their turns and what came of each.  `turn` gives the turn of a member at the
destination it finds. -/
inductive Passes (turn : MemberPlan → Value → Run (Call ω) (Option Value)) :
    Assembly ω → List (MemberPlan × Option Value) → Assembly ω → Prop where
  | done (a : Assembly ω) : Passes turn a [] a
  | next {m : MemberPlan} {a a' : Assembly ω} {o : Option Value} {call : Call ω}
      {turns : List (MemberPlan × Option Value)}
      (took : (turn m a.destination).run a.call = (.ok o, call))
      (rest : Passes turn { destination := m.put a.destination o, call } turns a') :
      Passes turn a ((m, o) :: turns) a'

section

variable {turn : MemberPlan → Value → Run (Call ω) (Option Value)}
  {assign : MemberPlan → Run (Assembly ω) Unit}

/-- A run over members succeeds just if each has its turn. -/
theorem MemberPlan.forM_assign_ok_iff
    (h : ∀ m a, (assign m).run a = m.settle a.destination ((turn m a.destination).run a.call))
    {ms : List MemberPlan} {a a' : Assembly ω} :
    (ms.forM assign).run a = (.ok (), a') ↔
      ∃ turns, turns.map Prod.fst = ms ∧ Passes turn a turns a' := by
  induction ms generalizing a with
  | nil =>
    constructor
    · rintro ⟨⟩
      exact ⟨[], rfl, .done _⟩
    · rintro ⟨turns, hnil, hpasses⟩
      cases List.map_eq_nil_iff.mp hnil
      cases hpasses
      rfl
  | cons m ms ih =>
    rw [Run.forM_cons]
    have hassign := h m a
    rcases hturn : (turn m a.destination).run a.call with ⟨e | o, call⟩
    · rw [hturn] at hassign
      rw [Run.run_bind_error hassign]
      refine ⟨nofun, ?_⟩
      rintro ⟨turns, hmap, hpasses⟩
      cases hpasses with
      | done => cases hmap
      | next took rest =>
        cases hmap
        rw [hturn] at took
        cases took
    · rw [hturn] at hassign
      rw [Run.run_bind_ok hassign, ih]
      constructor
      · rintro ⟨turns, rfl, hpasses⟩
        exact ⟨(m, o) :: turns, rfl, .next hturn hpasses⟩
      · rintro ⟨turns, hmap, hpasses⟩
        cases hpasses with
        | done => cases hmap
        | next took rest =>
          cases hmap
          rw [hturn] at took
          cases took
          exact ⟨_, rfl, rest⟩

/-- **A run over members fails** at the first whose turn fails: those before it have
had theirs, and the failure changes nothing. -/
theorem MemberPlan.forM_assign_error_iff
    (h : ∀ m a, (assign m).run a = m.settle a.destination ((turn m a.destination).run a.call))
    {ms : List MemberPlan} {a a' : Assembly ω} {e : MapError} :
    (ms.forM assign).run a = (.error e, a') ↔
      ∃ turns m after mid call, ms = turns.map Prod.fst ++ m :: after ∧ Passes turn a turns mid ∧
        (turn m mid.destination).run mid.call = (.error e, call) ∧ a' = { mid with call } := by
  induction ms generalizing a with
  | nil =>
    refine ⟨nofun, ?_⟩
    rintro ⟨turns, m, after, mid, call, hsplit, -⟩
    cases turns <;> cases hsplit
  | cons m ms ih =>
    rw [Run.forM_cons]
    have hassign := h m a
    rcases hturn : (turn m a.destination).run a.call with ⟨e' | o, call⟩
    · rw [hturn] at hassign
      rw [Run.run_bind_error hassign]
      constructor
      · rintro ⟨⟩
        exact ⟨[], m, ms, a, call, rfl, .done a, hturn, rfl⟩
      · rintro ⟨turns, n, after, mid, call', hsplit, hpasses, hfails, rfl⟩
        cases hpasses with
        | done =>
          cases hsplit
          rw [hturn] at hfails
          cases hfails
          rfl
        | next took rest =>
          cases hsplit
          rw [hturn] at took
          cases took
    · rw [hturn] at hassign
      rw [Run.run_bind_ok hassign, ih]
      constructor
      · rintro ⟨turns, n, after, mid, call', rfl, hpasses, hfails, rfl⟩
        exact ⟨(m, o) :: turns, n, after, mid, call', rfl, .next hturn hpasses, hfails, rfl⟩
      · rintro ⟨turns, n, after, mid, call', hsplit, hpasses, hfails, rfl⟩
        cases hpasses with
        | done =>
          cases hsplit
          rw [hturn] at hfails
          cases hfails
        | next took rest =>
          cases hsplit
          rw [hturn] at took
          cases took
          exact ⟨_, n, after, mid, call', rfl, rest, hfails, rfl⟩

/-! ## §3. What turns leave of the destination -/

/-- The values of turns laid over a destination. -/
def overlay (turns : List (MemberPlan × Option Value)) (destination : Value) : Value :=
  turns.foldl (fun d taken => taken.1.put d taken.2) destination

theorem Passes.destination_eq {a a' : Assembly ω} {turns : List (MemberPlan × Option Value)}
    (h : Passes turn a turns a') : a'.destination = overlay turns a.destination := by
  induction h with
  | done a => rfl
  | next took rest ih => exact ih

end

/-- What stands at a position of a record. -/
def Value.slot? (i : Nat) : Value → Option Value
  | .record _ members => members[i]?
  | _ => none

theorem Value.slot?_setMember_ne (d v : Value) {i j : Nat} (h : i ≠ j) :
    (d.setMember i v).slot? j = d.slot? j := by
  cases d <;> first | rfl | exact List.getElem?_set_ne h

theorem Value.slot?_setMember_self {d : Value} (v : Value) {i : Nat}
    (h : (d.slot? i).isSome = true) : (d.setMember i v).slot? i = some v := by
  cases d with
  | record n members =>
    obtain ⟨w, hw⟩ := Option.isSome_iff_exists.mp h
    exact List.getElem?_set_self (List.getElem?_eq_some_iff.mp hw).1
  | _ => cases h

theorem MemberPlan.isSome_slot?_put (m : MemberPlan) (d : Value) (o : Option Value) (i : Nat)
    (h : (d.slot? i).isSome = true) : ((m.put d o).slot? i).isSome = true := by
  cases o with
  | none => exact h
  | some v =>
    by_cases hi : m.declaration = i
    · subst hi
      show ((d.setMember _ v).slot? _).isSome = true
      rw [Value.slot?_setMember_self v h]
      rfl
    · show ((d.setMember _ v).slot? _).isSome = true
      rw [Value.slot?_setMember_ne d v hi]
      exact h

theorem MemberPlan.slot?_put_ne (m : MemberPlan) (d : Value) (o : Option Value) {i : Nat}
    (h : m.declaration ≠ i) : (m.put d o).slot? i = d.slot? i := by
  cases o with
  | none => rfl
  | some v => exact Value.slot?_setMember_ne d v h

/-- A member that has had no turn keeps what it has. -/
theorem slot?_overlay_of_absent {turns : List (MemberPlan × Option Value)} {i : Nat}
    (h : ∀ taken ∈ turns, taken.1.declaration ≠ i) (d : Value) :
    (overlay turns d).slot? i = d.slot? i := by
  induction turns generalizing d with
  | nil => rfl
  | cons taken turns ih =>
    obtain ⟨hhead, hrest⟩ := List.forall_mem_cons.mp h
    exact (ih hrest _).trans (taken.1.slot?_put_ne d taken.2 hhead)

/-- **A member that has had its turn** holds the value of that turn, or what it had if
there was none. -/
theorem slot?_overlay_of_mem {turns : List (MemberPlan × Option Value)}
    (hdistinct : turns.Pairwise fun x y => x.1.declaration ≠ y.1.declaration)
    {m : MemberPlan} {o : Option Value} (hmem : (m, o) ∈ turns) {d : Value}
    (hslot : (d.slot? m.declaration).isSome = true) :
    (overlay turns d).slot? m.declaration = o.or (d.slot? m.declaration) := by
  induction turns generalizing d with
  | nil => cases hmem
  | cons taken turns ih =>
    obtain ⟨hhead, hrest⟩ := List.pairwise_cons.mp hdistinct
    show (overlay turns (taken.1.put d taken.2)).slot? m.declaration = _
    rcases List.mem_cons.mp hmem with rfl | hmem
    -- Nothing after it is at the same position.
    · rw [slot?_overlay_of_absent fun later hlater => (hhead later hlater).symm]
      cases o with
      | none => rfl
      | some v => exact Value.slot?_setMember_self v hslot
    · rw [ih hrest hmem (taken.1.isSome_slot?_put d taken.2 _ hslot),
        taken.1.slot?_put_ne d taken.2 (hhead _ hmem)]

end RecordMap
