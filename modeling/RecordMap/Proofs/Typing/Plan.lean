import RecordMap.Proofs.Plan.Resolve
import RecordMap.Proofs.Typing.Conversion

/-!
# Typed plans

A configuration is sound when its callbacks are and the values in it are
well-formed; likewise the defaults.  Resolving a sound configuration gives a
*typed* specification (`Config.Sound.typed`): every path leads from the source
record, every conversion joins its source to its member, and every constant and
sentinel has the type of its member.
-/

namespace RecordMap

/-! ## §1. Sound configurations -/

/-- A provider is sound and a constant well-formed; paths have nothing to ask. -/
def Origin.Sound (σ : Schema) (source destination : String) : Origin → Prop
  | provider p => p.Sound σ source destination
  | constant v => v.WellFormed σ
  | path _ | nested _ _ => True

/-- **The configuration is sound.** -/
structure Config.Sound (σ : Schema) (c : Config) : Prop where
  converters : c.converters.Sound σ
  constants : c.constants.WellFormed σ
  sentinels : c.sentinels.WellFormed σ
  origins : ∀ m ∈ c.members, ∀ o ∈ m.origins, o.Sound σ c.source c.destination
  memberSentinels : ∀ m ∈ c.members, ∀ v ∈ m.sentinel, v.WellFormed σ
  factory : ∀ f ∈ c.factory, f.Sound σ c.source c.destination
  before : ∀ h ∈ c.before, h.Sound σ c.source c.destination
  after : ∀ h ∈ c.after, h.Sound σ c.source c.destination

/-- **The defaults are sound.** -/
structure Defaults.Sound (σ : Schema) (d : Defaults) : Prop where
  converters : d.converters.Sound σ
  operators : d.operators.Sound σ
  constants : d.constants.WellFormed σ
  sentinels : d.sentinels.WellFormed σ
  factories : d.factories.WellFormed σ

/-- Every converter and operator of the scope is sound. -/
structure Scope.Sound (σ : Schema) (S : Scope) : Prop where
  mapping : S.mapping.Sound σ
  defaults : S.defaults.Sound σ
  operators : S.operators.Sound σ

theorem Scope.Sound.satisfies {σ : Schema} {S : Scope} (h : S.Sound σ) :
    S.Satisfies (·.Sound σ) := by
  rintro a b k (hk | hk | hk)
  · exact h.mapping.of_get? hk
  · exact h.defaults.of_get? hk
  · exact h.operators.of_get? hk

/-! ## §2. Typed specifications -/

/-- The source of a read member is sound. -/
def Accessor.Sound (σ : Schema) (source destination : String) : Accessor → Prop
  | path p => p.Leads σ source
  | provider p => p.Sound σ source destination

/-- A production gives values of a type. -/
inductive Production.Typed (σ : Schema) (source destination : String) (type : Ty) :
    Production → Prop where
  | constant {v : Value} (typed : v.HasType σ type) : Typed σ source destination type (.constant v)
  | read {a : Accessor} {conversion : Conversion} {sentinel : Option Value}
      (sound : a.Sound σ source destination) (joins : conversion.Joins (·.Sound σ) a.type type)
      (guarded : ∀ v ∈ sentinel, v.HasType σ type) :
      Typed σ source destination type (.read a conversion sentinel)

/-- The plan is for a member of its type and gives values of it. -/
structure MemberPlan.Typed (σ : Schema) (source destination : String) (m : MemberPlan) : Prop where
  declared : ∃ f, (σ.fields destination)[m.declaration]? = some f ∧ f.type = m.type
  production : m.production.Typed σ source destination m.type

/-- A destination is created as a record of the type. -/
def Creation.Typed (σ : Schema) (source destination : String) : Creation → Prop
  | custom f => f.Sound σ source destination
  | fallback v => v.HasType σ (.record destination)
  | zero => True

/-- **The specification is typed.** -/
structure Specification.Typed (σ : Schema) (s : Specification) : Prop where
  members : ∀ m ∈ s.members, m.Typed σ s.source s.destination
  creation : s.creation.Typed σ s.source s.destination
  before : ∀ h ∈ s.before, h.Sound σ s.source s.destination
  after : ∀ h ∈ s.after, h.Sound σ s.source s.destination

/-! ## §3. Sound configurations resolve to typed specifications -/

namespace Config

variable {σ : Schema} {c : Config} {d : Defaults} {type : Ty} {member : String}

theorem Sound.scope (hc : c.Sound σ) (hd : d.Sound σ) : (c.scope d).Sound σ :=
  ⟨hc.converters, hd.converters, hd.operators⟩

theorem Sound.of_member? (hc : c.Sound σ) {m : MemberConfig} (hm : c.member? member = some m) :
    (∀ o ∈ m.origins, o.Sound σ c.source c.destination) ∧ ∀ v ∈ m.sentinel, v.WellFormed σ := by
  have hmem := List.mem_of_find?_eq_some hm
  exact ⟨hc.origins m hmem, hc.memberSentinels m hmem⟩

theorem Sound.of_origin? (hc : c.Sound σ) {o : Origin} (ho : c.origin? member = some o) :
    o.Sound σ c.source c.destination := by
  unfold origin? at ho
  have hmem := List.mem_of_head? ho
  cases hm : c.member? member with
  | none =>
    rw [hm] at hmem
    cases hmem
  | some m =>
    rw [hm] at hmem
    exact (hc.of_member? hm).1 o hmem

/-- A conversion without nested mappers evaluates to a value of its target. -/
theorem hasType_of_evaluate {conversion : Conversion} {a b : Ty} {v w : Value}
    (hjoins : conversion.Joins (·.Sound σ) a b) (hflat : conversion.isNested = false)
    (hv : v.HasType σ a) (h : (conversion.evaluate σ v).1 = .ok (some w)) : w.HasType σ b := by
  -- No handler is ever asked: there is no pairing to nest.
  have hnone : ∀ p ∈ conversion.pairings, Nesting.Sound σ (fun _ : Unit => True)
      Conversion.unreachable p := by
    intro p hp
    have hnil : conversion.pairings = [] := by
      by_contra hne
      rw [(Conversion.isNested_iff conversion).mpr hne] at hflat
      cases hflat
    rw [hnil] at hp
    cases hp
  have hrun : Run.Typed (Call.WellFormed σ fun _ : Unit => True) (Conversion.Gives σ b)
      (conversion.run σ none none Conversion.unreachable v) :=
    hjoins.typed_run hnone (fun _ hp => nomatch hp) (fun _ hp => nomatch hp) hv
  obtain ⟨_, hresult⟩ := hrun { trail := { outside := () } }
    ⟨Scratch.wellFormed_empty σ, trivial⟩
  change Run.Result _ _ (conversion.evaluate σ v).1 at hresult
  rw [h] at hresult
  exact hresult w rfl

theorem Fits.hasType (hscope : (c.scope d).Sound σ) {v w : Value} (h : c.Fits σ d type v w)
    (hv : v.WellFormed σ) : w.HasType σ type := by
  cases h with
  | same typed => exact hv.hasType typed
  | converted differs found flat gives typed =>
    exact hasType_of_evaluate (Scope.joins_resolve hscope.satisfies found) flat hv gives

theorem Sound.constant? (hc : c.Sound σ) (hd : d.Sound σ) {v : Value}
    (h : c.constant? d (c.origin? member) type = some v) : v.WellFormed σ := by
  unfold Config.constant? at h
  split at h
  · rename_i u horigin
    cases h
    exact hc.of_origin? horigin
  · rcases Option.or_eq_some_iff.mp h with h | ⟨_, h⟩
    · exact (hc.constants.of_get? h).wellFormed
    · exact (hd.constants.of_get? h).wellFormed

theorem Sound.sentinel? (hc : c.Sound σ) (hd : d.Sound σ) {v : Value}
    (h : c.sentinel? d (c.member? member) type = some v) : v.WellFormed σ := by
  unfold Config.sentinel? at h
  rcases Option.or_eq_some_iff.mp h with h | ⟨_, h⟩
  · obtain ⟨m, hm, hsentinel⟩ := Option.bind_eq_some_iff.mp h
    exact (hc.of_member? hm).2 v hsentinel
  · rcases Option.or_eq_some_iff.mp h with h | ⟨_, h⟩
    · exact (hc.sentinels.of_get? h).wellFormed
    · exact (hd.sentinels.of_get? h).wellFormed

theorem Sourced.sound (hc : c.Sound σ) {a : Accessor} {conversion : Conversion}
    (h : c.Sourced σ d member type (c.origin? member) a conversion) :
    a.Sound σ c.source c.destination := by
  cases a with
  | path p => exact h.leads
  | provider p =>
    generalize horigin : c.origin? member = origin at h
    cases h with
    | provider found => exact hc.of_origin? horigin

/-- The plan of a member of a sound configuration is typed. -/
theorem Plans.typed (hc : c.Sound σ) (hd : d.Sound σ) {declaration : Nat}
    {f : RecordMap.Field} {plan : MemberPlan} (hplan : c.Plans σ d declaration f plan)
    (hf : (σ.fields c.destination)[declaration]? = some f) :
    plan.Typed σ c.source c.destination := by
  have hscope := hc.scope hd
  refine ⟨⟨f, by rw [hplan.declaration, hf], hplan.type.symm⟩, ?_⟩
  rw [hplan.type]
  have hproduction := hplan.production
  generalize plan.production = production at hproduction
  cases hproduction with
  | constant first fits => exact .constant (fits.hasType hscope (hc.constant? hd first))
  | read sourced guarded =>
    refine .read (sourced.sound hc) (sourced.joins hscope.satisfies) ?_
    intro v hv
    cases guarded with
    | sentinel _ first fits =>
      cases hv
      exact fits.hasType hscope (hc.sentinel? hd first)
    | unguarded _ => cases hv

theorem Sound.typed_creation (hc : c.Sound σ) (hd : d.Sound σ) :
    (c.creation d).Typed σ c.source c.destination := by
  unfold Config.creation
  cases hfactory : c.factory with
  | some f => exact hc.factory f hfactory
  | none =>
    cases hv : d.factories.get? (.record c.destination) with
    | some v => exact hd.factories.of_get? hv
    | none => trivial

/-- **A sound configuration resolves to a typed specification.** -/
theorem Sound.typed (hc : c.Sound σ) (hd : d.Sound σ) {spec : Specification}
    (h : c.Resolved σ d spec) : spec.Typed σ := by
  refine ⟨?_, ?_, ?_, ?_⟩
  · intro plan hplan
    obtain ⟨f, hf, hplans⟩ := h.plans hplan
    rw [h.source, h.destination]
    exact hplans.typed hc hd hf
  · rw [h.creation, h.source, h.destination]
    exact hc.typed_creation hd
  · rw [h.before, h.source, h.destination]
    exact hc.before
  · rw [h.after, h.source, h.destination]
    exact hc.after

end Config

end RecordMap
