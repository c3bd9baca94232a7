import RecordMap.Proofs.Nesting.Confined
import RecordMap.Proofs.Run.Retraces

/-!
# Calls that are made again

What lies outside of a call changes only by what its handlers do.  So a call that is
made again retraces the first one as soon as its handlers do, member by member
(`Specification.retraces_construct`): if the first call succeeded, and left behind
something in `B`, the second one comes to the same from wherever `K` holds.

The callbacks of the two calls run in lockstep, since each call starts with a store of
its own.
-/

namespace RecordMap

section

variable {ω ω' : Type} (B : ω → Prop) (K : ω' → Prop) {α : Type}

/-- A run that retraces another on its trail. -/
abbrev Trail.Retraces (x : Run (Trail ω) α) (y : Run (Trail ω') α) : Prop :=
  Run.Retraces (fun t => B t.outside) (fun _ u => K u.outside) x y

/-- A run that retraces another in its call. -/
abbrev Call.Retraces (x : Run (Call ω) α) (y : Run (Call ω') α) : Prop :=
  Run.Retraces (fun c => B c.trail.outside) (Call.Related fun _ u => K u.outside) x y

/-- A run that retraces another in its assembly. -/
abbrev Assembly.Retraces (x : Run (Assembly ω) α) (y : Run (Assembly ω') α) : Prop :=
  Run.Retraces (fun a => B a.call.trail.outside) (Assembly.Related fun _ u => K u.outside) x y

/-- An update that retraces another. -/
abbrev Specification.Updating.Retraces (x : Run (Updating ω) α) (y : Run (Updating ω') α) : Prop :=
  Run.Retraces (fun u => B u.trail.outside) (Updating.Related fun _ u => K u.outside) x y

/-- A handler that retraces another for a pairing. -/
def Nesting.Retraces (nest : Nesting ω) (nest' : Nesting ω') (p : Pairing) : Prop :=
  ∀ v q, Trail.Retraces B K (nest p v q) (nest' p v q)

end

variable {ω ω' α : Type} {B : ω → Prop} {K : ω' → Prop} {σ : Schema}
  {parameter handedOn : Option Value}

/-! ## §1. Callbacks -/

theorem Trail.keepsNotes_outside : Trail.KeepsNotes fun (_ : Trail ω) (u : Trail ω') => K u.outside :=
  fun _ _ _ h => h

/-- What a call does without its handlers. -/
theorem Call.retraces_of_lockstep {x : Run (Call ω) α} {y : Run (Call ω') α}
    (hsame : Run.Simulates (Call.Related fun _ u => K u.outside) (fun _ _ => False) x y)
    (hstays : ∀ w, Call.Confined (fun w' => w' = w) (fun _ => True) x) : Call.Retraces B K x y :=
  .of_lockstep (l := fun c : Call ω => c.trail.outside) hsame hstays

theorem Call.retraces_onTrail {x : Run (Trail ω) α} {y : Run (Trail ω') α}
    (h : Trail.Retraces B K x y) : Call.Retraces B K (Call.onTrail x) (Call.onTrail y) := by
  refine h.zoom ?_ ?_ ?_ ?_
  · exact fun _ _ h => h
  · exact fun _ h => h
  · exact fun _ _ hc => hc.2
  · exact fun _ _ _ _ hc ht => ⟨hc.1, ht⟩

theorem Assembly.retraces_onCall {x : Run (Call ω) α} {y : Run (Call ω') α}
    (h : Call.Retraces B K x y) : Assembly.Retraces B K (Assembly.onCall x) (Assembly.onCall y) := by
  refine h.zoom ?_ ?_ ?_ ?_
  · exact fun _ _ h => h
  · exact fun _ h => h
  · exact fun _ _ ha => ha.2
  · exact fun _ _ _ _ ha hc => ⟨ha.1, hc⟩

/-- Whether or not it has its parameter, a callback stays in its call. -/
theorem Supplied.any {t : Ty} : Supplied σ (fun _ => True) parameter t :=
  fun _ => trivial

theorem Condition.retraces_allHold (ks : List Condition) (source : Value) :
    Call.Retraces B K (Condition.allHold σ parameter source ks)
      (Condition.allHold σ parameter source ks) :=
  Call.retraces_of_lockstep
    (Condition.simulates_allHold (Trail.KeepsNotes.related Trail.keepsNotes_outside) ks source)
    fun _ => Condition.confined_allHold ks source fun _ _ => .any

theorem Hook.retraces_run (k : Hook) (source : Value) :
    Assembly.Retraces B K (k.run σ parameter source) (k.run σ parameter source) := by
  have hsame : Run.Simulates (Assembly.Related fun (_ : Trail ω) (u : Trail ω') => K u.outside)
      (Assembly.Escape fun _ _ => False) (k.run σ parameter source) (k.run σ parameter source) :=
    k.simulates_run Trail.keepsNotes_outside source
  have hstays : ∀ w : ω, Assembly.Confined (fun w' => w' = w) (fun _ => True)
      (k.run σ parameter source) := fun _ => k.confined_run source fun _ _ => .any
  exact .of_lockstep (l := fun a : Assembly ω => a.call.trail.outside) hsame hstays

theorem Provider.retraces_provide (p : Provider) (source destination : Value) :
    Call.Retraces B K (p.provide σ parameter source destination)
      (p.provide σ parameter source destination) :=
  Call.retraces_of_lockstep
    (p.simulates_provide (Trail.KeepsNotes.related Trail.keepsNotes_outside)
      (fun _ => Call.sharesStore_related) source destination)
    fun _ => p.confined_provide source destination fun _ _ => .any

/-! ## §2. Conversions -/

section

variable {nest : Nesting ω} {nest' : Nesting ω'}

/-- A conversion that nests nothing. -/
theorem Conversion.retraces_run_of_flat {c : Conversion} (hflat : c.pairings = []) (v : Value) :
    Call.Retraces B K (c.run σ parameter handedOn nest v) (c.run σ parameter handedOn nest' v) := by
  have hnone : ∀ p ∈ c.pairings, False := by
    intro p hp
    rw [hflat] at hp
    cases hp
  have hsame : Run.Simulates (Call.Related fun (_ : Trail ω) (u : Trail ω') => K u.outside)
      (Call.Escape fun _ _ => False) (c.run σ parameter handedOn nest v)
      (c.run σ parameter handedOn nest' v) :=
    c.simulates_run Trail.keepsNotes_outside (fun p hp => (hnone p hp).elim) v
  refine Call.retraces_of_lockstep hsame fun _ => ?_
  exact c.confined_run (fun _ _ => trivial) v (fun _ _ => .any) fun p hp => (hnone p hp).elim

/-- **A conversion that is run again** retraces the first run if the handler does. -/
theorem Conversion.retraces_run (c : Conversion)
    (hnest : ∀ p ∈ c.pairings, Nesting.Retraces B K nest nest' p) (v : Value) :
    Call.Retraces B K (c.run σ parameter handedOn nest v) (c.run σ parameter handedOn nest' v) := by
  induction c generalizing v with
  | unwrap t next ih =>
    rw [Conversion.run, Conversion.run]
    split
    · exact ih hnest _
    · exact .pure none
  | wrap t next ih =>
    rw [Conversion.run, Conversion.run]
    refine (ih hnest v).bind fun o => ?_
    cases o with
    | some out => exact .map _ (.require _ _)
    | none => exact .pure none
  | wrapSource t next ih =>
    rw [Conversion.run, Conversion.run]
    exact (Run.Retraces.require _ _).bind fun wrapped => ih hnest wrapped
  | elements a b next ih =>
    rw [Conversion.run, Conversion.run]
    refine (Run.Retraces.require _ _).bind fun items => ?_
    refine Run.Retraces.bind (.mapM fun item _ => (ih hnest item).bind fun o => .pure _) ?_
    exact fun out => .map _ (.require _ _)
  | nested p =>
    rw [Conversion.run, Conversion.run]
    exact .map _ (Call.retraces_onTrail (hnest p (List.mem_singleton.mpr rfl) v handedOn))
  | _ => exact Conversion.retraces_run_of_flat rfl v

/-! ## §3. Members -/

theorem Accessor.retraces_read (a : Accessor) (c : Conversion)
    (hnest : ∀ p ∈ c.pairings, Nesting.Retraces B K nest nest' p) (recordName : String)
    (source destination : Value) :
    Call.Retraces B K (a.read σ parameter handedOn nest recordName source destination c)
      (a.read σ parameter handedOn nest' recordName source destination c) := by
  unfold Accessor.read
  cases a with
  | path p =>
    dsimp only
    split
    · exact c.retraces_run hnest _
    · exact .pure none
  | provider p =>
    exact (p.retraces_provide source destination).bind fun raw => c.retraces_run hnest raw

theorem MemberPlan.retraces_assign (m : MemberPlan)
    (hnest : ∀ a c s, m.production = .read a c s →
      ∀ p ∈ c.pairings, Nesting.Retraces B K nest nest' p)
    (recordName : String) (source : Value) :
    Assembly.Retraces B K (m.assign σ parameter handedOn nest recordName source)
      (m.assign σ parameter handedOn nest' recordName source) := by
  have hvalue : ∀ destination, Call.Retraces B K
      (m.value σ parameter handedOn nest recordName source destination)
      (m.value σ parameter handedOn nest' recordName source destination) := by
    intro destination
    unfold MemberPlan.value
    cases hproduction : m.production with
    | constant v => exact .pure v
    | read a c s =>
      exact (a.retraces_read c (hnest a c s hproduction) recordName source destination).bind
        fun o => .pure _
  unfold MemberPlan.assign
  refine (Assembly.retraces_onCall
    (Condition.retraces_allHold m.conditions source)).bind fun holds => ?_
  cases holds with
  | false => exact .pure _
  | true =>
    -- Both see the destination as it is, and it is the same.
    refine .bindGet (h := fun a => Assembly.onCall
        (m.value σ parameter handedOn nest' recordName source a.destination) >>= fun v =>
      Run.require (a.destination.assign? m.type m.declaration v)
        (.typeMismatch (σ.name m.type)) >>= fun assigned =>
      modify fun a => { a with destination := assigned }) (fun a => ?_) fun a a' ha => ?_
    · refine (Assembly.retraces_onCall (hvalue a.destination)).bind fun v => ?_
      refine (Run.Retraces.require _ _).bind fun assigned => ?_
      exact .modify (fun _ h => h) fun _ _ hb => ⟨rfl, hb.2⟩
    · rw [ha.1]

end

/-! ## §4. Whole calls -/

namespace Specification

variable {nest : Nat → Nesting ω} {nest' : Nat → Nesting ω'} (s : Specification)
  (hnest : ∀ i p, s.NestsAt i p → Nesting.Retraces B K (nest i) (nest' i) p)

include hnest

theorem retraces_body (parameter : Option Value) (source : Value) :
    Assembly.Retraces B K (s.body σ nest parameter source) (s.body σ nest' parameter source) := by
  have hhooks : ∀ hooks : List Hook, Assembly.Retraces B K
      (hooks.forM fun h => h.run σ parameter source)
      (hooks.forM fun h => h.run σ parameter source) :=
    fun hooks => .forM fun h _ => h.retraces_run source
  have hmembers : Assembly.Retraces B K (s.assignMembers σ nest parameter source)
      (s.assignMembers σ nest' parameter source) := by
    refine .forM fun m hm => m.retraces_assign ?_ _ _
    intro a c t hread p hp
    exact hnest _ p ⟨m, hm, rfl, a, c, t, hread, hp⟩
  unfold body
  refine (hhooks s.before).bind fun _ => ?_
  refine (Assembly.retraces_onCall (Condition.retraces_allHold s.guards source)).bind fun holds => ?_
  cases holds with
  | true => exact hmembers.bind fun _ => hhooks s.after
  | false => exact hhooks s.after

/-- **An update that is made again.** -/
theorem retraces_update (parameter : Option Value) (source : Value) :
    Updating.Retraces B K (s.update σ nest parameter source) (s.update σ nest' parameter source) := by
  refine (s.retraces_body hnest parameter source).zoom ?_ ?_ ?_ ?_
  · exact fun _ _ h => h
  · exact fun _ h => h
  -- Both start with an empty store.
  · exact fun _ _ hu => ⟨hu.1, rfl, hu.2⟩
  · exact fun _ _ _ _ _ ha => ⟨ha.1, ha.2.2⟩

/-- **A construction that is made again.** -/
theorem retraces_construct (parameter : Option Value) (source : Value) :
    Trail.Retraces B K (s.construct σ nest parameter source)
      (s.construct σ nest' parameter source) := by
  have hcreate : Call.Retraces B K (s.create σ parameter source) (s.create σ parameter source) := by
    unfold create
    split
    · rename_i f _
      exact Call.retraces_of_lockstep
        (f.simulates_make (Trail.KeepsNotes.related Trail.keepsNotes_outside) source)
        fun _ => f.confined_make source fun _ _ => .any
    · exact .require _ _
    · exact .pure _
  have hfill : Assembly.Retraces B K
      (do
        s.body σ nest parameter source
        return (← get).destination)
      (do
        s.body σ nest' parameter source
        return (← get).destination) := by
    refine (s.retraces_body hnest parameter source).bind fun _ => ?_
    refine .bindGet (h := fun a => pure a.destination) (fun a => .pure _) fun a a' ha => ?_
    rw [ha.1]
  refine Run.Retraces.zoom (D := fun c : Call ω => B c.trail.outside)
    (S := Call.Related fun _ u => K u.outside) ?_ (fun _ _ h => h) (fun _ h => h)
    (fun _ _ ht => ⟨rfl, ht⟩) fun _ _ _ _ _ hc => hc.2
  refine hcreate.bind fun start => ?_
  refine Run.Retraces.zoom (D := fun a : Assembly ω => B a.call.trail.outside)
    (S := Assembly.Related fun _ u => K u.outside) ?_ (fun _ _ h => h) (fun _ h => h)
    (fun _ _ hc => ⟨rfl, hc⟩) fun _ _ _ _ _ ha => ha.2
  exact hfill

end Specification

/-! ## §5. Invocations -/

theorem Outcome.retraces_constructing {x : Run (Trail ω) (Option Value)}
    {y : Run (Trail ω') (Option Value)} (h : Trail.Retraces B K x y) {t : Trail ω} {u : Trail ω'}
    (hsuccess : (constructing x t).1.failure? = none) (hB : B (constructing x t).2.outside)
    (hK : K u.outside) :
    (constructing y u).1 = (constructing x t).1 ∧ K (constructing y u).2.outside := by
  rcases hx : x.run t with ⟨e | v, t'⟩
  · unfold constructing at hsuccess
    rw [hx] at hsuccess
    cases hsuccess
  · unfold constructing at hB ⊢
    rw [hx] at hB ⊢
    obtain ⟨u', hy, hK'⟩ := h.achieves t u v t' hK hB hx
    rw [hy]
    exact ⟨rfl, hK'⟩

theorem Outcome.retraces_updating {x : Run (Specification.Updating ω) Unit}
    {y : Run (Specification.Updating ω') Unit} (h : Specification.Updating.Retraces B K x y)
    (d : Value) {t : Trail ω} {u : Trail ω'} (hsuccess : (updating d x t).1.failure? = none)
    (hB : B (updating d x t).2.outside) (hK : K u.outside) :
    (updating d y u).1 = (updating d x t).1 ∧ K (updating d y u).2.outside := by
  rcases hx : x.run { destination := d, trail := t } with ⟨e | ⟨⟩, t'⟩
  · unfold updating at hsuccess
    rw [hx] at hsuccess
    cases hsuccess
  · unfold updating at hB ⊢
    rw [hx] at hB ⊢
    obtain ⟨u', hy, hdestination, hK'⟩ := h.achieves { destination := d, trail := t }
      { destination := d, trail := u } () t' ⟨rfl, hK⟩ hB hx
    rw [hy]
    dsimp only at hdestination ⊢
    rw [hdestination]
    exact ⟨rfl, hK'⟩

namespace Mapper

variable {nest : Nat → Nesting ω} {nest' : Nat → Nesting ω'} (m : Mapper)
  (hnest : ∀ i p, m.spec.NestsAt i p → Nesting.Retraces B K (nest i) (nest' i) p)

include hnest

/-- **A nested call that is made again.** -/
theorem retraces_constructAny (v : Value) (q : Option Value) :
    Trail.Retraces B K (m.constructAny σ nest v q) (m.constructAny σ nest' v q) := by
  cases hrejected : m.rejection? σ (.constructAny v q) with
  | some e =>
    rw [constructAny_of_rejection hrejected]
    exact .throw e _
  | none =>
    rw [constructAny_of_admitted hrejected, constructAny_of_admitted hrejected]
    exact m.spec.retraces_construct hnest _ v

/-- **An invocation that is made again**, once it has succeeded, comes to the same. -/
theorem invoke_retraces {i : Invocation} {t : Trail ω} {u : Trail ω'}
    (hsuccess : (m.invoke σ nest i t).1.failure? = none) (hB : B (m.invoke σ nest i t).2.outside)
    (hK : K u.outside) :
    (m.invoke σ nest' i u).1 = (m.invoke σ nest i t).1 ∧ K (m.invoke σ nest' i u).2.outside := by
  cases hrejected : m.rejection? σ i with
  | some e =>
    rw [failure_of_rejection hrejected] at hsuccess
    cases hsuccess
  | none =>
    cases hsource : i.source? with
    | none =>
      obtain ⟨r, _, hinvoke⟩ := invoke_of_absent σ m hsource
      rw [hinvoke, hinvoke]
      exact ⟨rfl, hK⟩
    | some s =>
      rw [invoke_of_admitted hrejected hsource] at hsuccess hB
      rw [invoke_of_admitted hrejected hsource, invoke_of_admitted hrejected hsource]
      unfold routine at hsuccess hB ⊢
      cases hdestination : i.destination? with
      | none =>
        rw [hdestination] at hsuccess hB
        have hrun := m.spec.retraces_construct (σ := σ) hnest (m.taken i) s
        exact Outcome.retraces_constructing (hrun.map some) hsuccess hB hK
      | some d =>
        rw [hdestination] at hsuccess hB
        have hrun := m.spec.retraces_update (σ := σ) hnest (m.taken i) s
        exact Outcome.retraces_updating hrun d hsuccess hB hK

end Mapper

end RecordMap
