import RecordMap.Mapper
import RecordMap.Proofs.Typing.Plan

/-!
# Typed calls

A typed specification, called with a well-typed source, keeps its destination
well-typed at every moment and never fails with a type mismatch; what it
constructs is a record of the destination type.  A failure leaves the destination
as it was then, which is well-typed too.

The nested mappers are reached through a handler for each member, which has to be
sound for the pairing the member nests.
-/

namespace RecordMap

variable {ω α : Type} {σ : Schema} {K : ω → Prop} {nest : Nat → Nesting ω}
  {parameter handedOn : Option Value} {source : Value}

/-- The state of an assembly is in order. -/
def Assembly.WellFormed (σ : Schema) (K : ω → Prop) (destination : String) (a : Assembly ω) :
    Prop :=
  a.destination.HasType σ (.record destination) ∧ a.call.WellFormed σ K

theorem Assembly.typed_onCall {destination : String} {Q : α → Prop} {x : Run (Call ω) α}
    (hx : Run.Typed (Call.WellFormed σ K) Q x) :
    Run.Typed (Assembly.WellFormed σ K destination) Q (Assembly.onCall x) :=
  hx.zoom (fun _ ha => ha.2) fun _ _ ha hc => ⟨ha.1, hc⟩

/-! ## §1. Members -/

section Members

variable {r dest : String} {d : Value}

theorem Accessor.Sound.typed_read {a : Accessor} (ha : a.Sound σ r dest) {conversion : Conversion}
    {t : Ty} (hjoins : conversion.Joins (·.Sound σ) a.type t) {nest : Nesting ω}
    (hnest : ∀ p ∈ conversion.pairings, Nesting.Sound σ K nest p)
    (hp : ParameterWellFormed σ parameter) (hh : ParameterWellFormed σ handedOn)
    (hsource : source.HasType σ (.record r)) (hd : d.HasType σ (.record dest)) :
    Run.Typed (Call.WellFormed σ K) (Conversion.Gives σ t)
      (a.read σ parameter handedOn nest r source d conversion) := by
  cases a with
  | path p =>
    rw [Accessor.read]
    cases hraw : p.read? σ r source with
    | some raw => exact hjoins.typed_run hnest hp hh (ha.hasType_read? hsource hraw)
    | none => exact .pure fun _ hw => nomatch hw
  | provider p =>
    exact (Provider.typed_provide ha hp hsource hd).bind fun raw hraw =>
      hjoins.typed_run hnest hp hh hraw

/-- **A typed plan** gives values of its member's type. -/
theorem MemberPlan.Typed.typed_value {m : MemberPlan} (hm : m.Typed σ r dest) {nest : Nesting ω}
    (hnest : ∀ a conversion sentinel, m.production = .read a conversion sentinel →
      ∀ p ∈ conversion.pairings, Nesting.Sound σ K nest p)
    (hp : ParameterWellFormed σ parameter) (hh : ParameterWellFormed σ handedOn)
    (hsource : source.HasType σ (.record r)) (hd : d.HasType σ (.record dest)) :
    Run.Typed (Call.WellFormed σ K) (·.HasType σ m.type)
      (m.value σ parameter handedOn nest r source d) := by
  have hproduction := hm.production
  unfold MemberPlan.value
  cases hprod : m.production with
  | constant v =>
    rw [hprod] at hproduction
    cases hproduction with
    | constant typed => exact .pure typed
  | read a conversion sentinel =>
    rw [hprod] at hproduction
    cases hproduction with
    | read sound joins guarded =>
      refine (sound.typed_read joins (hnest _ _ _ hprod) hp hh hsource hd).bind fun o ho => .pure ?_
      cases o with
      | some w => exact ho w rfl
      | none =>
        cases sentinel with
        | some v => exact guarded v rfl
        | none => exact Value.hasType_zero σ m.type

/-- **Assigning a member** keeps the destination well-typed. -/
theorem MemberPlan.Typed.typed_assign {m : MemberPlan} (hm : m.Typed σ r dest) {nest : Nesting ω}
    (hnest : ∀ a conversion sentinel, m.production = .read a conversion sentinel →
      ∀ p ∈ conversion.pairings, Nesting.Sound σ K nest p)
    (hp : ParameterWellFormed σ parameter) (hh : ParameterWellFormed σ handedOn)
    (hsource : source.HasType σ (.record r)) :
    Run.Typed (Assembly.WellFormed σ K dest) (fun _ => True)
      (m.assign σ parameter handedOn nest r source) := by
  unfold MemberPlan.assign
  refine (Assembly.typed_onCall (Condition.typed_allHold _ hp)).bind fun holds _ => ?_
  cases holds with
  | false => exact .pure trivial
  | true =>
    refine Run.Ensures.get.bind fun a ha => ?_
    refine (Assembly.typed_onCall (hm.typed_value hnest hp hh hsource ha.1)).bind fun v hv => ?_
    obtain ⟨f, hf, htype⟩ := hm.declared
    -- A typed value is never refused.
    rw [hv.assign?, Run.require_some]
    refine Run.Ensures.modify fun b hb => ⟨?_, hb.2⟩
    exact ha.1.setMember hf (htype ▸ hv)

end Members

/-! ## §2. Whole calls -/

namespace Specification

variable {s : Specification}

/-- The handlers are sound for every pairing a member nests. -/
def SoundHandlers (σ : Schema) (K : ω → Prop) (s : Specification) (nest : Nat → Nesting ω) : Prop :=
  ∀ i p, s.NestsAt i p → Nesting.Sound σ K (nest i) p

theorem parameterWellFormed_handedOn (hp : ParameterWellFormed σ parameter) :
    ParameterWellFormed σ (s.handedOn parameter) := by
  unfold handedOn
  split
  · exact hp
  · exact fun _ h => nomatch h

theorem Typed.typed_assignMembers (hs : s.Typed σ) (hnest : s.SoundHandlers σ K nest)
    (hp : ParameterWellFormed σ parameter) (hsource : source.HasType σ (.record s.source)) :
    Run.Typed (Assembly.WellFormed σ K s.destination) (fun _ => True)
      (s.assignMembers σ nest parameter source) := by
  refine Run.Ensures.forM fun m hm => ?_
  refine (hs.members m hm).typed_assign ?_ hp (parameterWellFormed_handedOn hp) hsource
  intro a conversion sentinel hread p hmem
  exact hnest _ p ⟨m, hm, rfl, a, conversion, sentinel, hread, hmem⟩

theorem typed_hooks {hooks : List Hook} (hs : ∀ h ∈ hooks, h.Sound σ s.source s.destination)
    (hp : ParameterWellFormed σ parameter) (hsource : source.HasType σ (.record s.source)) :
    Run.Typed (Assembly.WellFormed σ K s.destination) (fun _ => True)
      (hooks.forM fun h => h.run σ parameter source) := by
  refine Run.Ensures.forM fun h hmem => ?_
  refine Run.Ensures.get.bind fun a ha => ?_
  refine (Assembly.typed_onCall (Hook.typed_change (hs h hmem) hp hsource ha.1)).bind fun d hd => ?_
  exact Run.Ensures.modify fun b hb => ⟨hd, hb.2⟩

/-- **The body of a call** keeps the destination well-typed. -/
theorem Typed.typed_body (hs : s.Typed σ) (hnest : s.SoundHandlers σ K nest)
    (hp : ParameterWellFormed σ parameter) (hsource : source.HasType σ (.record s.source)) :
    Run.Typed (Assembly.WellFormed σ K s.destination) (fun _ => True)
      (s.body σ nest parameter source) := by
  unfold body
  -- The after-hooks run whether or not the guards held.
  refine (typed_hooks hs.before hp hsource).bind fun _ _ => ?_
  refine (Assembly.typed_onCall (Condition.typed_allHold _ hp)).bind fun holds _ => ?_
  have hafter := typed_hooks (K := K) hs.after hp hsource
  cases holds with
  | true => exact (hs.typed_assignMembers hnest hp hsource).bind fun _ _ => hafter
  | false => exact hafter

theorem Typed.typed_create (hs : s.Typed σ) (hp : ParameterWellFormed σ parameter)
    (hsource : source.HasType σ (.record s.source)) :
    Run.Typed (Call.WellFormed σ K) (·.HasType σ (.record s.destination))
      (s.create σ parameter source) := by
  have hcreation := hs.creation
  unfold create
  cases hkind : s.creation with
  | custom f =>
    rw [hkind] at hcreation
    exact Factory.typed_make hcreation hp hsource
  | fallback v =>
    rw [hkind] at hcreation
    have hv : v.HasType σ (.record s.destination) := hcreation
    show Run.Typed _ _ (Run.require (v.as? (.record s.destination)) _)
    rw [hv.as?]
    exact .pure hv
  | zero => exact .pure (Value.hasType_zero σ _)

/-- The state of an updating call is in order. -/
def Updating.WellFormed (σ : Schema) (K : ω → Prop) (destination : String) (u : Updating ω) : Prop :=
  u.destination.HasType σ (.record destination) ∧ K u.trail.outside

/-- **Updating** keeps the destination well-typed, also when it fails. -/
theorem Typed.typed_update (hs : s.Typed σ) (hnest : s.SoundHandlers σ K nest)
    (hp : ParameterWellFormed σ parameter) (hsource : source.HasType σ (.record s.source)) :
    Run.Typed (Updating.WellFormed σ K s.destination) (fun _ => True)
      (s.update σ nest parameter source) := by
  have hbody := hs.typed_body hnest hp hsource
  refine hbody.zoom ?_ ?_
  · intro u hu
    exact ⟨hu.1, Scratch.wellFormed_empty σ, hu.2⟩
  · intro u a _ ha
    exact ⟨ha.1, ha.2.2⟩

/-- **Constructing** gives a record of the destination. -/
theorem Typed.typed_construct (hs : s.Typed σ) (hnest : s.SoundHandlers σ K nest)
    (hp : ParameterWellFormed σ parameter) (hsource : source.HasType σ (.record s.source)) :
    Run.Typed (fun t : Trail ω => K t.outside) (·.HasType σ (.record s.destination))
      (s.construct σ nest parameter source) := by
  -- Whatever the destination starts from, the body keeps its type.
  have hfill : ∀ start : Value, start.HasType σ (.record s.destination) →
      Run.Typed (Call.WellFormed σ K) (·.HasType σ (.record s.destination))
        (Run.zoom (fun c => ({ destination := start, call := c } : Assembly ω)) (fun _ a => a.call)
          (do
            s.body σ nest parameter source
            return (← get).destination)) := by
    intro start hstart
    have hbody : Run.Typed (Assembly.WellFormed σ K s.destination)
        (·.HasType σ (.record s.destination)) (do
          s.body σ nest parameter source
          return (← get).destination) :=
      (hs.typed_body hnest hp hsource).bind fun _ _ =>
        Run.Ensures.get.bind fun a ha => .pure ha.1
    exact hbody.zoom (fun _ hc => ⟨hstart, hc⟩) fun _ _ _ ha => ha.2
  exact ((hs.typed_create hp hsource).bind hfill).zoom
    (fun _ ht => ⟨Scratch.wellFormed_empty σ, ht⟩) fun _ _ _ hc => hc.2

end Specification

/-! ## §3. Mappers -/

namespace Mapper

variable {m : Mapper} {I : α → Prop} {p : Value}

theorem typed_demand (m : Mapper) (shape : Shape) :
    Run.Typed I (fun _ => True) (m.demand σ shape) := by
  unfold demand
  split
  · exact .pure trivial
  · exact .throw fun h => h

theorem typed_checkParameter (m : Mapper) (p : Value) :
    Run.Typed I (fun _ => True) (m.checkParameter σ p) := by
  unfold checkParameter
  split
  · split
    · exact .pure trivial
    · exact .throw fun h => h
  · exact .pure trivial

theorem parameterWellFormed_some (hp : p.WellFormed σ) : ParameterWellFormed σ (some p) := by
  intro q hq
  cases hq
  exact hp

theorem parameterWellFormed_none : ParameterWellFormed σ none := fun _ h => nomatch h

section

variable (hm : m.spec.Typed σ) (hnest : m.spec.SoundHandlers σ K nest)
  (hsource : source.HasType σ (.record m.spec.source))

include hm hnest hsource

theorem typed_update : Run.Typed (Specification.Updating.WellFormed σ K m.spec.destination)
    (fun _ => True) (m.update σ nest source) := by
  refine (m.typed_demand _).bind fun _ _ => ?_
  exact hm.typed_update hnest parameterWellFormed_none hsource

theorem typed_updateWith (hp : p.WellFormed σ) :
    Run.Typed (Specification.Updating.WellFormed σ K m.spec.destination) (fun _ => True)
      (m.updateWith σ nest source p) := by
  refine (m.typed_demand _).bind fun _ _ => ?_
  refine (m.typed_checkParameter p).bind fun _ _ => ?_
  exact hm.typed_update hnest (parameterWellFormed_some hp) hsource

theorem typed_construct : Run.Typed (fun t : Trail ω => K t.outside)
    (·.HasType σ (.record m.spec.destination)) (m.construct σ nest source) := by
  refine (m.typed_demand _).bind fun _ _ => ?_
  exact hm.typed_construct hnest parameterWellFormed_none hsource

theorem typed_constructWith (hp : p.WellFormed σ) :
    Run.Typed (fun t : Trail ω => K t.outside) (·.HasType σ (.record m.spec.destination))
      (m.constructWith σ nest source p) := by
  refine (m.typed_demand _).bind fun _ _ => ?_
  refine (m.typed_checkParameter p).bind fun _ _ => ?_
  exact hm.typed_construct hnest (parameterWellFormed_some hp) hsource

/-- **Construction from any value**, whatever shape it chooses. -/
theorem typed_constructAny (hp : ParameterWellFormed σ parameter) :
    Run.Typed (fun t : Trail ω => K t.outside) (·.HasType σ (.record m.spec.destination))
      (m.constructAny σ nest source parameter) := by
  unfold constructAny
  rw [hsource.as?, Run.require_some, pure_bind]
  -- Whichever shape is selected, it runs the same specification.
  split
  · rename_i p _
    exact (m.typed_checkParameter p).bind fun _ _ => hm.typed_construct hnest hp hsource
  · exact hm.typed_construct hnest parameterWellFormed_none hsource
  · exact hm.typed_construct hnest parameterWellFormed_none hsource
  · exact .throw fun h => h

end

end Mapper

end RecordMap
