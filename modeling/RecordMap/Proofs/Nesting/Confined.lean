import RecordMap.Proofs.Conversion.Tables
import RecordMap.Proofs.Mapper.Entry
import RecordMap.Proofs.Plan.Parameters

/-!
# Confined calls

A call is confined to `K` and `F` if it keeps `K` of whatever lies outside of it and
fails only in ways that `F` allows.  What a call can come to is what its own callbacks
and conversions can come to, the lack of a parameter that one of its callbacks
declares, and what the mappers nested in it do (`Specification.confined_construct`).

A nested mapper is asked only for what is handed to it: a value that lies in the
source of its member, or behind a provider (`Specification.Hands`).  So the handlers
of a call have to be confined for these values only.

One fault of conversions is set apart from the others, that of a cast which the table
does not join.  A call whose plan is supported never comes to it by itself, so `F` need
not allow it then.
-/

namespace RecordMap

/-! ## §1. Values handed on -/

/-- **A conversion hands on a value**: run on the first one, it may ask the mapper
nested in it for the second one. -/
inductive Conversion.Hands : Conversion → Value → Value → Prop where
  | nested (p : Pairing) (v : Value) : Hands (.nested p) v v
  | unwrap {t : Ty} {next : Conversion} {v inner w : Value} (holds : v.content? t = some inner)
      (more : Hands next inner w) : Hands (.unwrap t next) v w
  | wrap {t : Ty} {next : Conversion} {v w : Value} (more : Hands next v w) :
      Hands (.wrap t next) v w
  | wrapSource {t : Ty} {next : Conversion} {v wrapped w : Value}
      (closes : v.wrap? t = some wrapped) (more : Hands next wrapped w) :
      Hands (.wrapSource t next) v w
  | elements {a b : Ty} {next : Conversion} {v item w : Value} {items : List Value}
      (lists : v.items? a = some items) (mem : item ∈ items) (more : Hands next item w) :
      Hands (.elements a b next) v w

/-- A source offers a value: a path the one it leads to, a provider any. -/
def Accessor.Offers (σ : Schema) (recordName : String) (source : Value) : Accessor → Value → Prop
  | path p, raw => p.read? σ recordName source = some raw
  | provider _, _ => True

/-- **A call hands on a value** at a member: from the source it may ask the mapper of
the pairing nested there for the value. -/
def Specification.Hands (σ : Schema) (s : Specification) (source : Value) (declaration : Nat)
    (p : Pairing) (w : Value) : Prop :=
  ∃ plan ∈ s.members, plan.declaration = declaration ∧
    ∃ a conversion sentinel, plan.production = .read a conversion sentinel ∧
      p ∈ conversion.pairings ∧ ∃ raw, a.Offers σ s.source source raw ∧ conversion.Hands raw w

theorem Specification.Hands.nestsAt {σ : Schema} {s : Specification} {source : Value}
    {declaration : Nat} {p : Pairing} {w : Value} (h : s.Hands σ source declaration p w) :
    s.NestsAt declaration p := by
  obtain ⟨plan, hplan, hi, a, c, t, hread, hp, _⟩ := h
  exact ⟨plan, hplan, hi, a, c, t, hread, hp⟩

/-! ## §2. Confined runs -/

/-- A fault that a call may come to by itself, whatever its parameter. -/
def MapError.IsOwn : MapError → Prop
  | conversion .. | typeMismatch _ | callback _ => True
  | _ => False

theorem MapError.IsUnsupported.isOwn {e : MapError} (h : e.IsUnsupported) : e.IsOwn := by
  obtain ⟨_, _, _, _, rfl⟩ := h
  exact trivial

/-- The parameter is of the declared type, or the lack of it is an allowed failure. -/
def Supplied (σ : Schema) (F : MapError → Prop) (parameter : Option Value) (t : Ty) : Prop :=
  parameter.bind (·.as? t) = none → F (.parameterMissing (σ.name t))

section

variable {ω : Type} (K : ω → Prop) (F : MapError → Prop) {α : Type}

/-- **A confined run** on a trail: it keeps `K` and fails only as `F` allows. -/
abbrev Trail.Confined (x : Run (Trail ω) α) : Prop :=
  Run.Ensures (fun t => K t.outside) (fun _ => True) F x

/-- A confined run in a call. -/
abbrev Call.Confined (x : Run (Call ω) α) : Prop :=
  Run.Ensures (fun c => K c.trail.outside) (fun _ => True) F x

/-- A confined run in an assembly. -/
abbrev Assembly.Confined (x : Run (Assembly ω) α) : Prop :=
  Run.Ensures (fun a => K a.call.trail.outside) (fun _ => True) F x

/-- A confined run of an update. -/
abbrev Specification.Updating.Confined (x : Run (Updating ω) α) : Prop :=
  Run.Ensures (fun u => K u.trail.outside) (fun _ => True) F x

end

variable {ω α : Type} {K : ω → Prop} {F : MapError → Prop} {σ : Schema}
  {parameter handedOn : Option Value}

theorem Call.confined_note (label : Option String) : Call.Confined K F (Call.note label) :=
  .modify fun _ hc => hc

theorem Call.confined_withContext (f : Context → α × Scratch) :
    Call.Confined K F (Call.withContext parameter f) := by
  intro c hc
  exact ⟨hc, trivial⟩

theorem Call.confined_fetch {t : Ty} (h : Supplied σ F parameter t) :
    Call.Confined K F (Call.fetch σ parameter t) :=
  .require (fun _ _ => trivial) h

theorem Call.confined_onTrail {x : Run (Trail ω) α} (h : Trail.Confined K F x) :
    Call.Confined K F (Call.onTrail x) :=
  h.zoom (fun _ hc => hc) fun _ _ _ ht => ht

theorem Assembly.confined_onCall {x : Run (Call ω) α} (h : Call.Confined K F x) :
    Assembly.Confined K F (Assembly.onCall x) :=
  h.zoom (fun _ ha => ha) fun _ _ _ hc => hc

/-! ## §3. Callbacks -/

/-- Nothing but a lack of its parameter makes a condition fail. -/
theorem Condition.confined_holds (k : Condition) (source : Value)
    (h : ∀ t, k.parameter? = some t → Supplied σ F parameter t) :
    Call.Confined K F (k.holds σ parameter source) := by
  have hnote : Call.Confined K F (Call.note k.label) := Call.confined_note k.label
  unfold Condition.parameter? at h
  unfold Condition.holds
  cases hbody : k.body with
  | source f => exact hnote.bind fun _ _ => .pure trivial
  | parameter t f =>
    rw [hbody] at h
    exact (Call.confined_fetch (h t rfl)).bind fun _ _ => hnote.bind fun _ _ => .pure trivial

theorem Condition.confined_allHold (ks : List Condition) (source : Value)
    (h : ∀ t ∈ ks.filterMap (·.parameter?), Supplied σ F parameter t) :
    Call.Confined K F (Condition.allHold σ parameter source ks) := by
  induction ks with
  | nil => exact .pure trivial
  | cons k rest ih =>
    have hfirst : ∀ t, k.parameter? = some t → Supplied σ F parameter t :=
      fun t ht => h t (List.mem_filterMap.mpr ⟨k, List.mem_cons_self, ht⟩)
    have hrest : ∀ t ∈ rest.filterMap (·.parameter?), Supplied σ F parameter t := by
      intro t ht
      obtain ⟨k', hk', hkt⟩ := List.mem_filterMap.mp ht
      exact h t (List.mem_filterMap.mpr ⟨k', List.mem_cons_of_mem _ hk', hkt⟩)
    refine (k.confined_holds source hfirst).bind fun holds _ => ?_
    cases holds with
    | true => exact ih hrest
    | false => exact .pure trivial

theorem Provider.confined_provide (p : Provider) (source destination : Value)
    (h : ∀ t, p.parameter? = some t → Supplied σ F parameter t) :
    Call.Confined K F (p.provide σ parameter source destination) := by
  have hnote : Call.Confined K F (Call.note p.label) := Call.confined_note p.label
  unfold Provider.parameter? at h
  unfold Provider.provide
  cases hbody : p.body with
  | source f => exact hnote.bind fun _ _ => .pure trivial
  | destination f => exact hnote.bind fun _ _ => .pure trivial
  | parameter t f =>
    rw [hbody] at h
    exact (Call.confined_fetch (h t rfl)).bind fun _ _ => hnote.bind fun _ _ => .pure trivial
  | context f => exact hnote.bind fun _ _ => Call.confined_withContext (f source)

theorem Hook.confined_change (k : Hook) (source destination : Value)
    (h : ∀ t, k.parameter? = some t → Supplied σ F parameter t) :
    Call.Confined K F (k.change σ parameter source destination) := by
  have hnote : Call.Confined K F (Call.note k.label) := Call.confined_note k.label
  unfold Hook.parameter? at h
  unfold Hook.change
  cases hbody : k.body with
  | plain f => exact hnote.bind fun _ _ => .pure trivial
  | parameter t f =>
    rw [hbody] at h
    exact (Call.confined_fetch (h t rfl)).bind fun _ _ => hnote.bind fun _ _ => .pure trivial
  | context f => exact hnote.bind fun _ _ => Call.confined_withContext (f source destination)

theorem Hook.confined_run (k : Hook) (source : Value)
    (h : ∀ t, k.parameter? = some t → Supplied σ F parameter t) :
    Assembly.Confined K F (k.run σ parameter source) := by
  unfold Hook.run
  refine Run.Ensures.get.bind fun a _ => ?_
  refine (Assembly.confined_onCall (k.confined_change source a.destination h)).bind fun _ _ => ?_
  exact .modify fun _ ha => ha

theorem Hook.confined_runAll (ks : List Hook) (source : Value)
    (h : ∀ t ∈ ks.filterMap (·.parameter?), Supplied σ F parameter t) :
    Assembly.Confined K F (ks.forM fun k => k.run σ parameter source) := by
  refine .forM fun k hk => k.confined_run source fun t ht => ?_
  exact h t (List.mem_filterMap.mpr ⟨k, hk, ht⟩)

theorem Factory.confined_make (f : Factory) (source : Value)
    (h : ∀ t, f.parameter? = some t → Supplied σ F parameter t) :
    Call.Confined K F (f.make σ parameter source) := by
  have hnote : Call.Confined K F (Call.note f.label) := Call.confined_note f.label
  unfold Factory.parameter? at h
  unfold Factory.make
  cases hbody : f.body with
  | source g => exact hnote.bind fun _ _ => .pure trivial
  | parameter t g =>
    rw [hbody] at h
    exact (Call.confined_fetch (h t rfl)).bind fun _ _ => hnote.bind fun _ _ => .pure trivial

variable (hown : ∀ e : MapError, e.IsOwn → ¬e.IsUnsupported → F e)

include hown

theorem allows_typeMismatch (t : String) : F (.typeMismatch t) :=
  hown _ trivial (MapError.not_isUnsupported_of_ne (by simp))

theorem allows_callback (cause : String) : F (.callback cause) :=
  hown _ trivial (MapError.not_isUnsupported_of_ne (by simp))

theorem Converter.confined_apply (k : Converter) (v : Value)
    (h : ∀ t, k.parameter? = some t → Supplied σ F parameter t) :
    Call.Confined K F (k.apply σ parameter v) := by
  have hinput : Call.Confined K F (k.input σ v) :=
    .require (fun _ _ => trivial) fun _ => allows_typeMismatch hown _
  have hnote : Call.Confined K F (Call.note k.label) := Call.confined_note k.label
  unfold Converter.parameter? at h
  unfold Converter.apply
  cases hbody : k.body with
  | plain f => exact hinput.bind fun _ _ => hnote.bind fun _ _ => .pure trivial
  | fallible f =>
    refine hinput.bind fun v _ => hnote.bind fun _ _ => ?_
    cases f v with
    | ok out => exact .pure trivial
    | error cause => exact .throw (allows_callback hown cause)
  | context f =>
    exact hinput.bind fun v _ => hnote.bind fun _ _ => Call.confined_withContext (f v)
  | parameter t f =>
    rw [hbody] at h
    refine (Call.confined_fetch (h t rfl)).bind fun _ _ => ?_
    exact hinput.bind fun _ _ => hnote.bind fun _ _ => .pure trivial

/-! ## §4. Conversions -/

/-- A cast faults in an allowed way, if the table joins the pair or any fault is allowed. -/
theorem Conversion.confined_castOrFail {a b : Primitive} (v : Value)
    (hcast : (primitive a b).Supported ∨ ∀ e : MapError, e.IsUnsupported → F e) :
    Call.Confined K F (castOrFail a b v) := by
  unfold castOrFail
  split
  · exact .pure trivial
  · exact .throw (allows_typeMismatch hown _)
  · rename_i f hf
    rcases hcast with hjoined | hany
    · exact .throw (hown _ trivial (hjoined.not_isUnsupported hf))
    · by_cases hunsupported : (fault a.name b.name f).IsUnsupported
      · exact .throw (hany _ hunsupported)
      · exact .throw (hown _ trivial hunsupported)

theorem Conversion.confined_variantOut (e : String) (b : Primitive) (v : Value) :
    Call.Confined K F (variantOut σ e b v) := by
  have hmismatch : ∀ {β : Type} {o : Option β},
      Call.Confined K F (Run.require o (.typeMismatch "enum")) :=
    .require (fun _ _ => trivial) fun _ => allows_typeMismatch hown _
  unfold variantOut
  split
  · exact hmismatch.bind fun _ _ => .pure trivial
  · refine hmismatch.bind fun n _ => ?_
    split
    · exact .pure trivial
    · rename_i f hf
      refine .throw (hown _ trivial ?_)
      rw [isUnsupported_fault_iff]
      rintro ⟨value, t, rfl⟩
      exact Scalar.not_refuses_write_int n ⟨value, t, hf⟩

/-- The refusal of a variant is no fault of a cast. -/
theorem Conversion.confined_variant {o : Option Value} {source target : String} {reason : String}
    (h : reason.toList.head? ≠ some 'c') :
    Call.Confined K F (Run.require o (.conversion source target reason)) :=
  .require (fun _ _ => trivial) fun _ => hown _ trivial (MapError.not_isUnsupported_of_head h)

theorem Conversion.confined_variantIn (a : Primitive) (e : String) (v : Value) :
    Call.Confined K F (variantIn σ a e v) := by
  unfold variantIn
  split
  · split
    · exact confined_variant hown (by simp [String.toList_append])
    · exact .throw (allows_typeMismatch hown _)
  · refine Run.Ensures.bind (Q := fun _ => True) ?_ fun scalar _ => ?_
    · exact .require (fun _ _ => trivial) fun _ => allows_typeMismatch hown _
    · split
      · rename_i f hf
        refine .throw (hown _ trivial ?_)
        rw [isUnsupported_fault_iff]
        rintro ⟨value, t, rfl⟩
        exact Scalar.not_refuses_toInt ⟨value, t, hf⟩
      · exact confined_variant hown (by simp [String.toList_append])

theorem Conversion.confined_variantAcross (a b : String) (v : Value) :
    Call.Confined K F (variantAcross σ a b v) := by
  unfold variantAcross
  refine Run.Ensures.bind (Q := fun _ => True) ?_ fun name _ => ?_
  · exact .require (fun _ _ => trivial) fun _ => allows_typeMismatch hown _
  · exact confined_variant hown (by simp [String.toList_append])

/-- **A confined conversion**: its faults are its own, those of its converters, and
those of the nested mapper for the values it hands on. -/
theorem Conversion.confined_run_of_casts {nest : Nesting ω} (c : Conversion) (v : Value)
    (hcasts : c.Supported ∨ ∀ e : MapError, e.IsUnsupported → F e)
    (hconverters : ∀ t ∈ c.converters.filterMap (·.parameter?), Supplied σ F parameter t)
    (hnested : ∀ p ∈ c.pairings, ∀ w, c.Hands v w → Trail.Confined K F (nest p w handedOn)) :
    Call.Confined K F (c.run σ parameter handedOn nest v) := by
  have hmismatch : ∀ {β : Type} {o : Option β} {t : String},
      Call.Confined K F (Run.require o (.typeMismatch t)) :=
    .require (fun _ _ => trivial) fun _ => allows_typeMismatch hown _
  have hsome : ∀ {β : Type} {x : Run (Call ω) β}, Call.Confined K F x →
      Call.Confined K F (some <$> x) := fun hx => hx.map fun _ _ => trivial
  -- A step around the rest of the tree makes no cast, so what is known of the casts is passed on.
  induction c generalizing v with
  | passThrough t =>
    rw [Conversion.run]
    exact hsome hmismatch
  | converter k =>
    rw [Conversion.run]
    exact hsome (k.confined_apply hown v fun t ht =>
      hconverters t (List.mem_filterMap.mpr ⟨k, List.mem_singleton.mpr rfl, ht⟩))
  | operator k =>
    rw [Conversion.run]
    exact hsome (k.confined_apply hown v fun t ht =>
      hconverters t (List.mem_filterMap.mpr ⟨k, List.mem_singleton.mpr rfl, ht⟩))
  | primitive a b =>
    rw [Conversion.run]
    exact hsome (confined_castOrFail hown v hcasts)
  | fromEnum e b =>
    rw [Conversion.run]
    exact hsome (confined_variantOut hown e b v)
  | toEnum a e =>
    rw [Conversion.run]
    exact hsome (confined_variantIn hown a e v)
  | enumToEnum a b =>
    rw [Conversion.run]
    exact hsome (confined_variantAcross hown a b v)
  | unwrap t next ih =>
    rw [Conversion.run]
    split
    · rename_i inner hinner
      exact ih inner hcasts hconverters fun p hp w hw => hnested p hp w (.unwrap hinner hw)
    · exact .pure trivial
  | wrap t next ih =>
    rw [Conversion.run]
    refine (ih v hcasts hconverters fun p hp w hw => hnested p hp w (.wrap hw)).bind fun o _ => ?_
    cases o with
    | some out => exact hsome hmismatch
    | none => exact .pure trivial
  | wrapSource t next ih =>
    rw [Conversion.run]
    refine Run.Ensures.bind (Q := fun wrapped => v.wrap? t = some wrapped) ?_ fun wrapped hw => ?_
    · exact .require (fun _ h => h) fun _ => allows_typeMismatch hown _
    · exact ih wrapped hcasts hconverters fun p hp w hmore => hnested p hp w (.wrapSource hw hmore)
  | elements a b next ih =>
    rw [Conversion.run]
    refine Run.Ensures.bind (Q := fun items => v.items? a = some items) ?_ fun items hitems => ?_
    · exact .require (fun _ h => h) fun _ => allows_typeMismatch hown _
    · refine Run.Ensures.bind (Q := fun _ => True) ?_ fun out _ => hsome hmismatch
      refine (Run.Ensures.mapM (Q := fun _ => True) fun item hitem => ?_).mono fun _ _ => trivial
      refine (ih item hcasts hconverters fun p hp w hmore => ?_).bind fun _ _ => .pure trivial
      exact hnested p hp w (.elements hitems hitem hmore)
  | nested p =>
    rw [Conversion.run]
    exact hsome (Call.confined_onTrail
      (hnested p (List.mem_singleton.mpr rfl) v (.nested p v)))

omit hown in
/-- Where every own fault is allowed, the casts of the conversion do not matter. -/
theorem Conversion.confined_run (hany : ∀ e : MapError, e.IsOwn → F e) {nest : Nesting ω}
    (c : Conversion) (v : Value)
    (hconverters : ∀ t ∈ c.converters.filterMap (·.parameter?), Supplied σ F parameter t)
    (hnested : ∀ p ∈ c.pairings, ∀ w, c.Hands v w → Trail.Confined K F (nest p w handedOn)) :
    Call.Confined K F (c.run σ parameter handedOn nest v) :=
  c.confined_run_of_casts (fun e he _ => hany e he) v (.inr fun e he => hany e he.isOwn)
    hconverters hnested

/-! ## §5. Members -/

/-- The plan of a member casts along joined pairs only. -/
def MemberPlan.Supported (m : MemberPlan) : Prop :=
  ∀ c ∈ m.production.conversion?, c.Supported

theorem MemberPlan.confined_value {nest : Nesting ω} (m : MemberPlan) (recordName : String)
    (source destination : Value)
    (hcasts : m.Supported ∨ ∀ e : MapError, e.IsUnsupported → F e)
    (hdeclared : ∀ t ∈ m.production.parameters, Supplied σ F parameter t)
    (hnested : ∀ a c t, m.production = .read a c t → ∀ p ∈ c.pairings, ∀ raw,
      a.Offers σ recordName source raw → ∀ w, c.Hands raw w →
        Trail.Confined K F (nest p w handedOn)) :
    Call.Confined K F (m.value σ parameter handedOn nest recordName source destination) := by
  unfold MemberPlan.value
  cases hproduction : m.production with
  | constant v => exact .pure trivial
  | read a c s =>
    rw [hproduction] at hdeclared
    have hconverters : ∀ t ∈ c.converters.filterMap (·.parameter?), Supplied σ F parameter t :=
      fun t ht => hdeclared t (List.mem_append_right _ ht)
    have hsupported : c.Supported ∨ ∀ e : MapError, e.IsUnsupported → F e :=
      hcasts.imp_left fun h => h c (by rw [hproduction]; rfl)
    have hraw : ∀ raw, a.Offers σ recordName source raw →
        Call.Confined K F (c.run σ parameter handedOn nest raw) := fun raw hoffers =>
      c.confined_run_of_casts hown raw hsupported hconverters fun p hp w hw =>
        hnested a c s hproduction p hp raw hoffers w hw
    have hread : Call.Confined K F
        (a.read σ parameter handedOn nest recordName source destination c) := by
      unfold Accessor.read
      cases a with
      | path p =>
        dsimp only
        split
        · rename_i raw hsource
          exact hraw raw hsource
        · exact .pure trivial
      | provider p =>
        have hprovide : Call.Confined K F (p.provide σ parameter source destination) :=
          p.confined_provide source destination fun t ht =>
            hdeclared t (List.mem_append_left _ (Option.mem_toList.mpr ht))
        exact hprovide.bind fun raw _ => hraw raw trivial
    exact hread.bind fun _ _ => .pure trivial

/-- **Assigning a member** is confined, if the parameter is supplied and the handler is
confined for what is handed to it. -/
theorem MemberPlan.confined_assign {nest : Nesting ω} (m : MemberPlan) (recordName : String)
    (source : Value) (hcasts : m.Supported ∨ ∀ e : MapError, e.IsUnsupported → F e)
    (hdeclared : ∀ t ∈ m.parameters, Supplied σ F parameter t)
    (hnested : ∀ a c t, m.production = .read a c t → ∀ p ∈ c.pairings, ∀ raw,
      a.Offers σ recordName source raw → ∀ w, c.Hands raw w →
        Trail.Confined K F (nest p w handedOn)) :
    Assembly.Confined K F (m.assign σ parameter handedOn nest recordName source) := by
  have hconditions := Condition.confined_allHold (K := K) m.conditions source
    fun t ht => hdeclared t (List.mem_append_left _ ht)
  unfold MemberPlan.assign
  refine (Assembly.confined_onCall hconditions).bind fun holds _ => ?_
  cases holds with
  | false => exact .pure trivial
  | true =>
    refine Run.Ensures.get.bind fun a _ => ?_
    have hvalue := m.confined_value hown recordName source a.destination hcasts
      (fun t ht => hdeclared t (List.mem_append_right _ ht)) hnested
    refine (Assembly.confined_onCall hvalue).bind fun v _ => ?_
    refine Run.Ensures.bind (Q := fun _ => True) ?_ fun _ _ => .modify fun _ ha => ha
    exact .require (fun _ _ => trivial) fun _ => allows_typeMismatch hown _

/-! ## §6. Whole calls -/

namespace Specification

/-- **The plan of a mapping** casts along joined pairs only. -/
def Supported (s : Specification) : Prop := ∀ m ∈ s.members, m.Supported

variable {nest : Nat → Nesting ω} (s : Specification) {source : Value}
  (hcasts : s.Supported ∨ ∀ e : MapError, e.IsUnsupported → F e)
  (hdeclared : ∀ t ∈ s.parameters, Supplied σ F parameter t)
  (hnest : ∀ i p w, s.Hands σ source i p w →
    Trail.Confined K F (nest i p w (s.handedOn parameter)))

include hcasts hdeclared hnest

theorem confined_body : Assembly.Confined K F (s.body σ nest parameter source) := by
  have hmembers : Assembly.Confined K F (s.assignMembers σ nest parameter source) := by
    refine .forM fun m hm => m.confined_assign hown s.source source
      (hcasts.imp_left fun h => h m hm) (fun t ht => ?_) ?_
    · refine hdeclared t ?_
      have hmem : t ∈ s.members.flatMap (·.parameters) := List.mem_flatMap.mpr ⟨m, hm, ht⟩
      unfold parameters
      simp [hmem]
    · intro a c t hread p hp raw hraw w hw
      exact hnest _ p w ⟨m, hm, rfl, a, c, t, hread, hp, raw, hraw, hw⟩
  have hhooks : ∀ ks : List Hook, (∀ t ∈ ks.filterMap (·.parameter?), t ∈ s.parameters) →
      Assembly.Confined K F (ks.forM fun k => k.run σ parameter source) :=
    fun ks hks => Hook.confined_runAll ks source fun t ht => hdeclared t (hks t ht)
  have hbefore := hhooks s.before fun t ht => by
    unfold parameters
    simp only [List.mem_append]
    exact .inl (.inl (.inr ht))
  have hafter := hhooks s.after fun t ht => by
    unfold parameters
    simp only [List.mem_append]
    exact .inl (.inr ht)
  have hguards := Condition.confined_allHold (K := K) s.guards source
    fun t ht => hdeclared t (List.mem_append_right _ ht)
  unfold body
  refine hbefore.bind fun _ _ => ?_
  refine (Assembly.confined_onCall hguards).bind fun holds _ => ?_
  cases holds with
  | true => exact hmembers.bind fun _ _ => hafter
  | false => exact hafter

/-- **A confined update.** -/
theorem confined_update : Updating.Confined K F (s.update σ nest parameter source) :=
  (s.confined_body hown hcasts hdeclared hnest).zoom (fun _ hu => hu) fun _ _ _ ha => ha

/-- **A confined construction.** -/
theorem confined_construct : Trail.Confined K F (s.construct σ nest parameter source) := by
  have hcreate : Call.Confined K F (s.create σ parameter source) := by
    have hcreation : ∀ t ∈ s.creation.parameters, Supplied σ F parameter t := by
      intro t ht
      refine hdeclared t ?_
      unfold parameters
      simp only [List.mem_append]
      exact .inl (.inl (.inl (.inr ht)))
    unfold create
    cases hkind : s.creation with
    | custom f =>
      rw [hkind] at hcreation
      exact f.confined_make source fun t ht => hcreation t (Option.mem_toList.mpr ht)
    | fallback v => exact .require (fun _ _ => trivial) fun _ => allows_typeMismatch hown _
    | zero => exact .pure trivial
  refine Run.Ensures.zoom (J := fun c : Call ω => K c.trail.outside) ?_ (fun _ ht => ht)
    fun _ _ _ hc => hc
  refine hcreate.bind fun start _ => ?_
  refine Run.Ensures.zoom (J := fun a : Assembly ω => K a.call.trail.outside) ?_
    (fun _ hc => hc) fun _ _ _ ha => ha
  refine (s.confined_body hown hcasts hdeclared hnest).bind fun _ _ => ?_
  exact Run.Ensures.get.bind fun _ _ => .pure trivial

end Specification

/-! ## §7. Invocations -/

omit hown

theorem Outcome.allowed_constructing {x : Run (Trail ω) (Option Value)}
    (h : Trail.Confined K F x) {t : Trail ω} (ht : K t.outside) :
    (∀ e, (constructing x t).1.failure? = some e → F e) ∧ K (constructing x t).2.outside := by
  obtain ⟨hkeep, hres⟩ := h t ht
  refine ⟨fun e he => ?_, hkeep⟩
  change (ofConstruct (x.run t).1).failure? = some e at he
  cases hx : (x.run t).1 with
  | error e' =>
    rw [hx] at he hres
    cases he
    exact hres
  | ok v =>
    rw [hx] at he
    cases he

theorem Outcome.allowed_updating {x : Run (Specification.Updating ω) Unit}
    (h : Specification.Updating.Confined K F x) (d : Value) {t : Trail ω} (ht : K t.outside) :
    (∀ e, (updating d x t).1.failure? = some e → F e) ∧ K (updating d x t).2.outside := by
  obtain ⟨hkeep, hres⟩ := h { destination := d, trail := t } ht
  refine ⟨fun e he => ?_, hkeep⟩
  change (ofUpdate _ (x.run { destination := d, trail := t }).1).failure? = some e at he
  cases hx : (x.run { destination := d, trail := t }).1 with
  | error e' =>
    rw [hx] at he hres
    cases he
    exact hres
  | ok v =>
    rw [hx] at he
    cases he

include hown

/-- **A confined invocation**: it fails as it is turned away, as its callbacks fail, or
as the nested mappers do for what is handed to them. -/
theorem Mapper.confined_invoke_of_casts (m : Mapper) {nest : Nat → Nesting ω} {i : Invocation}
    (hcasts : m.spec.Supported ∨ ∀ e : MapError, e.IsUnsupported → F e)
    (hrefused : ∀ e, m.rejection? σ i = some e → F e)
    (hdeclared : m.rejection? σ i = none → ∀ t ∈ m.spec.parameters, Supplied σ F (m.taken i) t)
    (hnest : ∀ s, i.source? = some s → ∀ j p w, m.spec.Hands σ s j p w →
      Trail.Confined K F (nest j p w (m.spec.handedOn (m.taken i))))
    {t : Trail ω} (ht : K t.outside) :
    (∀ e, (m.invoke σ nest i t).1.failure? = some e → F e) ∧
      K (m.invoke σ nest i t).2.outside := by
  cases hrejected : m.rejection? σ i with
  | some e =>
    refine ⟨fun e' he' => ?_, ?_⟩
    · rw [failure_of_rejection hrejected] at he'
      cases he'
      exact hrefused e hrejected
    · rw [invoke_of_rejection hrejected]
      exact ht
  | none =>
    cases hsource : i.source? with
    | none =>
      obtain ⟨r, hr, hinvoke⟩ := invoke_of_absent σ m hsource
      rw [hinvoke, hr]
      exact ⟨nofun, ht⟩
    | some s =>
      have hdeclared' := hdeclared hrejected
      have hnest' := hnest s hsource
      rw [invoke_of_admitted hrejected hsource]
      unfold routine
      cases i.destination? with
      | none =>
        have hrun := m.spec.confined_construct hown hcasts hdeclared' hnest'
        exact Outcome.allowed_constructing (hrun.map fun _ _ => trivial) ht
      | some d =>
        exact Outcome.allowed_updating (m.spec.confined_update hown hcasts hdeclared' hnest') d ht

/-- **A confined nested call.** -/
theorem Mapper.confined_constructAny_of_casts (m : Mapper) {nest : Nat → Nesting ω} (v : Value)
    (q : Option Value) (hcasts : m.spec.Supported ∨ ∀ e : MapError, e.IsUnsupported → F e)
    (hrefused : ∀ e : MapError, e.IsRefusal → F e)
    (hdeclared : ∀ t ∈ m.spec.parameters, Supplied σ F (m.taken (.constructAny v q)) t)
    (hnest : ∀ j p w, m.spec.Hands σ v j p w →
      Trail.Confined K F (nest j p w (m.spec.handedOn (m.taken (.constructAny v q))))) :
    Trail.Confined K F (m.constructAny σ nest v q) := by
  cases hrejected : m.rejection? σ (.constructAny v q) with
  | some e =>
    rw [constructAny_of_rejection hrejected]
    exact .throw (hrefused e (isRefusal_of_rejection hrejected))
  | none =>
    rw [constructAny_of_admitted hrejected]
    exact m.spec.confined_construct hown hcasts hdeclared hnest

omit hown

variable (hany : ∀ e : MapError, e.IsOwn → F e)

include hany

/-- An invocation where every own fault is allowed. -/
theorem Mapper.confined_invoke (m : Mapper) {nest : Nat → Nesting ω} {i : Invocation}
    (hrefused : ∀ e, m.rejection? σ i = some e → F e)
    (hdeclared : m.rejection? σ i = none → ∀ t ∈ m.spec.parameters, Supplied σ F (m.taken i) t)
    (hnest : ∀ s, i.source? = some s → ∀ j p w, m.spec.Hands σ s j p w →
      Trail.Confined K F (nest j p w (m.spec.handedOn (m.taken i))))
    {t : Trail ω} (ht : K t.outside) :
    (∀ e, (m.invoke σ nest i t).1.failure? = some e → F e) ∧
      K (m.invoke σ nest i t).2.outside :=
  m.confined_invoke_of_casts (fun e he _ => hany e he) (.inr fun e he => hany e he.isOwn) hrefused
    hdeclared hnest ht

/-- A nested call where every own fault is allowed. -/
theorem Mapper.confined_constructAny (m : Mapper) {nest : Nat → Nesting ω} (v : Value)
    (q : Option Value) (hrefused : ∀ e : MapError, e.IsRefusal → F e)
    (hdeclared : ∀ t ∈ m.spec.parameters, Supplied σ F (m.taken (.constructAny v q)) t)
    (hnest : ∀ j p w, m.spec.Hands σ v j p w →
      Trail.Confined K F (nest j p w (m.spec.handedOn (m.taken (.constructAny v q))))) :
    Trail.Confined K F (m.constructAny σ nest v q) :=
  m.confined_constructAny_of_casts (fun e he _ => hany e he) v q
    (.inr fun e he => hany e he.isOwn) hrefused hdeclared hnest

end RecordMap
