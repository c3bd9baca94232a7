import RecordMap.Proofs.Nesting.Callbacks
import RecordMap.Proofs.Plan.Resolve

/-!
# Calls over different handlers

A call of a mapping says nothing of what lies outside of it: nested mappers are
reached through a handler, and all else happens in its own scratch store and on
its destination.  So two calls of one specification simulate each other as soon
as their handlers do, member by member, for the pairings nested there
(`Specification.simulates_construct`, `Mapper.simulates_constructAny`).

The trails of the two calls are related by any `R` that new entries of the two
journals keep.
-/

namespace RecordMap

variable {ω ω' α : Type} {R : Trail ω → Trail ω' → Prop} {esc : MapError → Trail ω → Prop}
  {σ : Schema}

/-! ## §1. Related states -/

/-- A relation of trails that entering a label on both sides keeps. -/
def Trail.KeepsNotes (R : Trail ω → Trail ω' → Prop) : Prop :=
  ∀ t t' label, R t t' →
    R { t with journal := t.journal.enter label } { t' with journal := t'.journal.enter label }

/-- Calls with the same store on related trails. -/
def Call.Related (R : Trail ω → Trail ω' → Prop) (c : Call ω) (c' : Call ω') : Prop :=
  c.scratch = c'.scratch ∧ R c.trail c'.trail

/-- Assemblies of the same destination in related calls. -/
def Assembly.Related (R : Trail ω → Trail ω' → Prop) (a : Assembly ω) (a' : Assembly ω') : Prop :=
  a.destination = a'.destination ∧ a.call.Related R a'.call

/-- Updates of the same destination on related trails. -/
def Specification.Updating.Related (R : Trail ω → Trail ω' → Prop) (u : Updating ω)
    (u' : Updating ω') : Prop :=
  u.destination = u'.destination ∧ R u.trail u'.trail

/-- An escape on the trail of a call. -/
def Call.Escape (esc : MapError → Trail ω → Prop) (e : MapError) (c : Call ω) : Prop := esc e c.trail

/-- An escape in the call of an assembly. -/
def Assembly.Escape (esc : MapError → Trail ω → Prop) (e : MapError) (a : Assembly ω) : Prop :=
  a.call.Escape esc e

/-- An escape on the trail of an update. -/
def Specification.Updating.Escape (esc : MapError → Trail ω → Prop) (e : MapError)
    (u : Updating ω) : Prop :=
  esc e u.trail

/-- **One handler simulates another** for a pairing. -/
def Nesting.Simulates (R : Trail ω → Trail ω' → Prop) (esc : MapError → Trail ω → Prop)
    (nest : Nesting ω) (nest' : Nesting ω') (p : Pairing) : Prop :=
  ∀ v handedOn, Run.Simulates R esc (nest p v handedOn) (nest' p v handedOn)

theorem Call.simulates_onTrail {x : Run (Trail ω) α} {y : Run (Trail ω') α}
    (h : Run.Simulates R esc x y) :
    Run.Simulates (Call.Related R) (Call.Escape esc) (Call.onTrail x) (Call.onTrail y) := by
  refine h.zoom ?_ ?_ ?_
  · intro c c' hc
    exact hc.2
  · intro c c' t t' hc ht
    exact ⟨hc.1, ht⟩
  · intro c c' t e _ he
    exact he

theorem Assembly.simulates_onCall {x : Run (Call ω) α} {y : Run (Call ω') α}
    (h : Run.Simulates (Call.Related R) (Call.Escape esc) x y) :
    Run.Simulates (Assembly.Related R) (Assembly.Escape esc) (Assembly.onCall x)
      (Assembly.onCall y) := by
  refine h.zoom ?_ ?_ ?_
  · intro a a' ha
    exact ha.2
  · intro a a' c c' ha hc
    exact ⟨ha.1, hc⟩
  · intro a a' c e _ he
    exact he

theorem Trail.KeepsNotes.related (hR : Trail.KeepsNotes R) : Call.KeepsNotes (Call.Related R) :=
  fun _ _ label hc => ⟨hc.1, hR _ _ label hc.2⟩

theorem Call.sharesStore_related : Call.SharesStore (Call.Related R) :=
  fun _ _ hc => ⟨hc.1, fun _ => ⟨rfl, hc.2⟩⟩

section

variable (hR : Trail.KeepsNotes R) {parameter handedOn : Option Value}

include hR

/-! ## §2. Hooks and conversions -/

theorem Hook.simulates_run (h : Hook) (source : Value) :
    Run.Simulates (Assembly.Related R) (Assembly.Escape esc) (h.run σ parameter source)
      (h.run σ parameter source) := by
  refine .bindGet fun a a' ha => ?_
  -- Both sides see the same destination.
  rw [ha.1]
  refine (Assembly.simulates_onCall
    (h.simulates_change hR.related Call.sharesStore_related source _)).bind fun changed => ?_
  exact .modify fun _ _ hb => ⟨rfl, hb.2⟩

/-- **A conversion over two handlers**: it depends on them only for the pairing it
nests. -/
theorem Conversion.simulates_run {nest : Nesting ω} {nest' : Nesting ω'} (c : Conversion)
    (hnest : ∀ p ∈ c.pairings, Nesting.Simulates R esc nest nest' p) (v : Value) :
    Run.Simulates (Call.Related R) (Call.Escape esc) (c.run σ parameter handedOn nest v)
      (c.run σ parameter handedOn nest' v) :=
  c.simulates_leaves (fun k _ => k.simulates_apply hR.related fun _ => Call.sharesStore_related)
    (fun p hp v => Call.simulates_onTrail (hnest p hp v handedOn)) v

/-! ## §3. Members -/

theorem Accessor.simulates_read {nest : Nesting ω} {nest' : Nesting ω'} (a : Accessor)
    (c : Conversion) (hnest : ∀ p ∈ c.pairings, Nesting.Simulates R esc nest nest' p)
    (recordName : String) (source destination : Value) :
    Run.Simulates (Call.Related R) (Call.Escape esc)
      (a.read σ parameter handedOn nest recordName source destination c)
      (a.read σ parameter handedOn nest' recordName source destination c) := by
  unfold Accessor.read
  cases a with
  | path p =>
    dsimp only
    split
    · exact c.simulates_run hR hnest _
    · exact .pure none
  | provider p =>
    refine (p.simulates_provide hR.related (fun _ => Call.sharesStore_related) source
      destination).bind fun raw => ?_
    exact c.simulates_run hR hnest raw

theorem MemberPlan.simulates_assign {nest : Nesting ω} {nest' : Nesting ω'} (m : MemberPlan)
    (hnest : ∀ a c s, m.production = .read a c s →
      ∀ p ∈ c.pairings, Nesting.Simulates R esc nest nest' p)
    (recordName : String) (source : Value) :
    Run.Simulates (Assembly.Related R) (Assembly.Escape esc)
      (m.assign σ parameter handedOn nest recordName source)
      (m.assign σ parameter handedOn nest' recordName source) := by
  -- A constant is the same on both sides; what is read goes through the handlers.
  have hvalue : ∀ destination, Run.Simulates (Call.Related R) (Call.Escape esc)
      (m.value σ parameter handedOn nest recordName source destination)
      (m.value σ parameter handedOn nest' recordName source destination) := by
    intro destination
    unfold MemberPlan.value
    cases hprod : m.production with
    | constant v => exact .pure v
    | read a c s =>
      exact (a.simulates_read hR c (hnest a c s hprod) recordName source destination).bind
        fun o => .pure _
  unfold MemberPlan.assign
  refine (Assembly.simulates_onCall
    (Condition.simulates_allHold hR.related m.conditions source)).bind fun holds => ?_
  cases holds with
  | false => exact .pure _
  | true =>
    refine .bindGet fun a a' ha => ?_
    rw [ha.1]
    refine (Assembly.simulates_onCall (hvalue _)).bind fun v => ?_
    exact (Run.Simulates.require _ _).bind fun assigned => .modify fun _ _ hb => ⟨rfl, hb.2⟩

/-! ## §4. Whole calls -/

namespace Specification

variable {nest : Nat → Nesting ω} {nest' : Nat → Nesting ω'} (s : Specification)
  (hnest : ∀ i p, s.NestsAt i p → Nesting.Simulates R esc (nest i) (nest' i) p)

include hnest

/-- **The body of a call** over two families of handlers. -/
theorem simulates_body (parameter : Option Value) (source : Value) :
    Run.Simulates (Assembly.Related R) (Assembly.Escape esc) (s.body σ nest parameter source)
      (s.body σ nest' parameter source) := by
  have hhooks : ∀ hooks : List Hook, Run.Simulates (Assembly.Related R) (Assembly.Escape esc)
      (hooks.forM fun h => h.run σ parameter source)
      (hooks.forM fun h => h.run σ parameter source) :=
    fun hooks => .forM fun h _ => h.simulates_run hR source
  -- The only place where the two handlers are looked at.
  have hmembers : Run.Simulates (Assembly.Related R) (Assembly.Escape esc)
      (s.assignMembers σ nest parameter source)
      (s.assignMembers σ nest' parameter source) := by
    refine .forM fun m hm => m.simulates_assign hR ?_ _ _
    intro a c t hread p hp
    exact hnest _ p ⟨m, hm, rfl, a, c, t, hread, hp⟩
  unfold body
  refine (hhooks s.before).bind fun _ => ?_
  refine (Assembly.simulates_onCall
    (Condition.simulates_allHold hR.related s.guards source)).bind fun holds => ?_
  cases holds with
  | true => exact hmembers.bind fun _ => hhooks s.after
  | false => exact hhooks s.after

theorem simulates_update (parameter : Option Value) (source : Value) :
    Run.Simulates (Updating.Related R) (Updating.Escape esc) (s.update σ nest parameter source)
      (s.update σ nest' parameter source) := by
  have hbody := s.simulates_body (σ := σ) hR hnest parameter source
  refine hbody.zoom ?_ ?_ ?_
  -- Both start with an empty store, and leave only the destination and the trail.
  · intro u u' hu
    exact ⟨hu.1, rfl, hu.2⟩
  · intro u u' a a' _ ha
    exact ⟨ha.1, ha.2.2⟩
  · intro u u' a e _ he
    exact he

theorem simulates_construct (parameter : Option Value) (source : Value) :
    Run.Simulates R esc (s.construct σ nest parameter source)
      (s.construct σ nest' parameter source) := by
  -- A call starts with an empty store of its own on both sides.
  have hcreate : Run.Simulates (Call.Related R) (Call.Escape esc) (s.create σ parameter source)
      (s.create σ parameter source) := by
    unfold create
    split
    · exact Factory.simulates_make hR.related _ source
    · exact .require _ _
    · exact .pure _
  have hfill : Run.Simulates (Assembly.Related R) (Assembly.Escape esc)
      (do
        s.body σ nest parameter source
        return (← get).destination)
      (do
        s.body σ nest' parameter source
        return (← get).destination) := by
    refine (s.simulates_body hR hnest parameter source).bind fun _ => ?_
    refine .bindGet fun a a' ha => ?_
    rw [ha.1]
    exact .pure _
  refine Run.Simulates.zoom (S := Call.Related R) ?_ (fun _ _ ht => ⟨rfl, ht⟩)
    (fun _ _ _ _ _ hc => hc.2) fun _ _ _ _ _ (he : Call.Escape esc _ _) => he
  refine hcreate.bind fun start => ?_
  exact hfill.zoom (fun _ _ hc => ⟨rfl, hc⟩) (fun _ _ _ _ _ ha => ha.2) fun _ _ _ _ _ he => he

end Specification

end

/-! ## §5. Mappers -/

namespace Mapper

variable {s s' : Type} {I : s → s' → Prop} {lapse : MapError → s → Prop} (m : Mapper)

theorem simulates_demand (shape : Shape) :
    Run.Simulates I lapse (m.demand σ shape) (m.demand σ shape) := by
  unfold demand
  split
  · exact .pure _
  · exact .throw _

theorem simulates_checkParameter (p : Value) :
    Run.Simulates I lapse (m.checkParameter σ p) (m.checkParameter σ p) := by
  unfold checkParameter
  split
  · split
    · exact .pure _
    · exact .throw _
  · exact .pure _

variable {nest : Nat → Nesting ω} {nest' : Nat → Nesting ω'} (hR : Trail.KeepsNotes R)
  (hnest : ∀ i p, m.spec.NestsAt i p → Nesting.Simulates R esc (nest i) (nest' i) p)

include hR hnest

theorem simulates_update (source : Value) :
    Run.Simulates (Specification.Updating.Related R) (Specification.Updating.Escape esc)
      (m.update σ nest source) (m.update σ nest' source) := by
  refine (m.simulates_demand _).bind fun _ => ?_
  exact m.spec.simulates_update hR hnest none source

theorem simulates_updateWith (source p : Value) :
    Run.Simulates (Specification.Updating.Related R) (Specification.Updating.Escape esc)
      (m.updateWith σ nest source p) (m.updateWith σ nest' source p) := by
  refine (m.simulates_demand _).bind fun _ => ?_
  refine (m.simulates_checkParameter p).bind fun _ => ?_
  exact m.spec.simulates_update hR hnest (some p) source

theorem simulates_construct (source : Value) :
    Run.Simulates R esc (m.construct σ nest source) (m.construct σ nest' source) := by
  refine (m.simulates_demand _).bind fun _ => ?_
  exact m.spec.simulates_construct hR hnest none source

theorem simulates_constructWith (source p : Value) :
    Run.Simulates R esc (m.constructWith σ nest source p) (m.constructWith σ nest' source p) := by
  refine (m.simulates_demand _).bind fun _ => ?_
  refine (m.simulates_checkParameter p).bind fun _ => ?_
  exact m.spec.simulates_construct hR hnest (some p) source

/-- **Construction from any value** over two families of handlers. -/
theorem simulates_constructAny (source : Value) (parameter : Option Value) :
    Run.Simulates R esc (m.constructAny σ nest source parameter)
      (m.constructAny σ nest' source parameter) := by
  unfold constructAny
  refine (Run.Simulates.require _ _).bind fun source => ?_
  split
  · exact (m.simulates_checkParameter _).bind fun _ => m.spec.simulates_construct hR hnest _ source
  · exact m.spec.simulates_construct hR hnest none source
  · exact m.spec.simulates_construct hR hnest none source
  · exact .throw _

end Mapper

end RecordMap
