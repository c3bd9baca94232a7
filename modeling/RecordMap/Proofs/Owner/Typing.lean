import RecordMap.Proofs.Owner.Nesting
import RecordMap.Proofs.Typing.Mapper

/-!
# Type soundness

With sound configurations no call ever meets a value of a type it does not expect:
neither a path, nor a converter, an option that is closed, a sequence that is
collected, the assignment of a member or the entry of a nested mapper.  Whatever
comes of a call has the type declared for it.

The nested mappers of an owner are sound because they are compiled from sound
configurations too.  This is shown of nesting afresh, by induction on its depth
(`Owner.sound_nestAfresh`), and carried over to the links of the owner by
simulation (`Owner.sound_nest`).
-/

namespace RecordMap

variable {ω : Type} {σ : Schema} {K : ω → Prop}

/-! ## §1. Invocations -/

/-- The arguments of an invocation are well-typed, for a source and a destination
type. -/
def Invocation.Typed (σ : Schema) (a b : Ty) : Invocation → Prop
  | construct s => s.HasType σ a
  | constructWith s p => s.HasType σ a ∧ p.WellFormed σ
  | constructOption s => ∀ v ∈ s, v.HasType σ a
  | constructAny s p => s.HasType σ a ∧ ParameterWellFormed σ p
  | update s d => s.HasType σ a ∧ d.HasType σ b
  | updateWith s p d => s.HasType σ a ∧ p.WellFormed σ ∧ d.HasType σ b
  | updateOption s d => (∀ v ∈ s, v.HasType σ a) ∧ d.HasType σ b

/-- **The outcome is well-typed**: what was constructed, and the destination also
after a failure, is of the destination type, and no failure is a type mismatch. -/
def Outcome.Typed (σ : Schema) (b : Ty) : Outcome → Prop
  | constructed o => ∀ v ∈ o, v.HasType σ b
  | failed e => ¬ e.IsTypeMismatch
  | updated d failure => d.HasType σ b ∧ ∀ e ∈ failure, ¬ e.IsTypeMismatch

theorem Outcome.typed_constructing {b : Ty} {x : Run (Trail ω) (Option Value)} {t : Trail ω}
    (hx : Run.Typed (fun t : Trail ω => K t.outside) (fun o => ∀ v ∈ o, v.HasType σ b) x)
    (ht : K t.outside) : (constructing x t).1.Typed σ b := by
  have hresult := (hx t ht).2
  show (ofConstruct (x.run t).1).Typed σ b
  cases hr : (x.run t).1 with
  | ok o =>
    rw [hr] at hresult
    exact hresult
  | error e =>
    rw [hr] at hresult
    exact hresult

theorem Outcome.typed_updating {destination : String} {x : Run (Specification.Updating ω) Unit}
    {d : Value} {t : Trail ω}
    (hx : Run.Typed (Specification.Updating.WellFormed σ K destination) (fun _ => True) x)
    (hd : d.HasType σ (.record destination)) (ht : K t.outside) :
    (updating d x t).1.Typed σ (.record destination) := by
  obtain ⟨hkeep, hresult⟩ := hx { destination := d, trail := t } ⟨hd, ht⟩
  show (ofUpdate (x.run _).2.destination (x.run _).1).Typed σ _
  cases hr : (x.run { destination := d, trail := t }).1 with
  | ok u => exact ⟨hkeep.1, fun _ h => nomatch h⟩
  | error e =>
    rw [hr] at hresult
    refine ⟨hkeep.1, ?_⟩
    rintro _ ⟨⟩
    exact hresult

/-- **Every invocation of a typed mapper** with well-typed arguments has a
well-typed outcome. -/
theorem Mapper.typed_invoke (m : Mapper) (hm : m.spec.Typed σ) {nest : Nat → Nesting ω}
    (hnest : m.spec.SoundHandlers σ K nest) {i : Invocation} {t : Trail ω}
    (hi : i.Typed σ (.record m.spec.source) (.record m.spec.destination)) (ht : K t.outside) :
    (m.invoke σ nest i t).1.Typed σ (.record m.spec.destination) := by
  have hsome : ∀ w : Value, w.HasType σ (.record m.spec.destination) →
      ∀ v ∈ some w, v.HasType σ (.record m.spec.destination) := by
    rintro w hw _ ⟨⟩
    exact hw
  cases i with
  | construct s =>
    have hrun := typed_construct hm hnest hi
    exact Outcome.typed_constructing (hrun.map hsome) ht
  | constructWith s p =>
    have hrun := typed_constructWith hm hnest hi.1 hi.2
    exact Outcome.typed_constructing (hrun.map hsome) ht
  | constructOption s =>
    refine Outcome.typed_constructing ?_ ht
    cases s with
    | some s =>
      have hrun := typed_construct hm hnest (hi s rfl)
      exact hrun.map hsome
    | none =>
      -- A value aggregate is constructed even from nothing, as a record of zeros.
      unfold Mapper.constructOption
      dsimp only
      split
      · exact .pure (hsome _ (Value.hasType_zero σ _))
      · exact .pure fun _ h => nomatch h
  | constructAny s p =>
    have hrun := typed_constructAny hm hnest hi.1 hi.2
    exact Outcome.typed_constructing (hrun.map hsome) ht
  | update s d =>
    show (Outcome.updating d (m.update σ nest s) t).1.Typed σ _
    exact Outcome.typed_updating (typed_update hm hnest hi.1) hi.2 ht
  | updateWith s p d =>
    show (Outcome.updating d (m.updateWith σ nest s p) t).1.Typed σ _
    exact Outcome.typed_updating (typed_updateWith hm hnest hi.1 hi.2.1) hi.2.2 ht
  | updateOption s d =>
    show (Outcome.updating d (m.updateOption σ nest s) t).1.Typed σ _
    refine Outcome.typed_updating ?_ hi.2 ht
    cases s with
    | some s => exact typed_update hm hnest (hi.1 s rfl)
    | none => exact .pure trivial

namespace Owner

variable {o : Owner} {s : State} {id : Nat} {p : Pairing} {m : Mapper}

/-! ## §2. Nested mappers -/

/-- **The owner is sound**: all its configurations are, and the defaults. -/
structure Sound (o : Owner) : Prop where
  configs : ∀ c ∈ o.configs, c.Sound o.schema
  defaults : o.defaults.Sound o.schema

/-- Every mapper of a sound owner is typed. -/
theorem Sound.typed (ho : o.Sound) {c : Config} (hc : c ∈ o.configs)
    (h : (o.compile c).1 = .ok m) : m.spec.Typed o.schema :=
  (ho.configs c hc).typed ho.defaults (resolved_of_compile h)

theorem not_isTypeMismatch_nestedError (e : BuildError) : ¬ (nestedError e).IsTypeMismatch := by
  cases e <;> exact fun h => h

/-- **Nesting afresh is sound**, to any depth and for every pairing. -/
theorem sound_nestAfresh (ho : o.Sound) (limit : Nat) (p : Pairing) :
    Nesting.Sound o.schema K (o.nestAfresh limit) p := by
  -- By induction on the depth: the mappers nested one level further in are sound.
  induction limit generalizing p with
  | zero => exact fun v handedOn _ _ => .throw fun h => h
  | succ limit ih =>
    intro v handedOn hv hh
    cases hp : o.mapperOf p with
    | error e =>
      rw [nestAfresh_of_error hp]
      exact .throw (not_isTypeMismatch_nestedError e)
    | ok m =>
      obtain ⟨c, hc, hcompile, hsource, hdest⟩ := compiled_of_mapperOf hp
      rw [nestAfresh_of_ok hp]
      rw [← hsource] at hv
      rw [← hdest]
      exact Mapper.typed_constructAny (ho.typed hc hcompile) (fun _ q _ => ih q) hv hh

/-- What a call keeps of the state it starts from, whether or not the owner is
still there. -/
def Kept (o : Owner) (s s' : State) : Prop := o.Consistent s' ∧ s.Extends s'

/-- **The owner's nesting is sound**, for every member of every instance. -/
theorem sound_nest (ho : o.Sound) (limit : Nat) {i : Nat} (hm : mapper? s id = some m)
    (hnests : m.spec.NestsAt i p) :
    Nesting.Sound o.schema (o.Kept s) (o.nest limit id i) p := by
  intro v handedOn hv hh t ht
  have htracks : o.Tracks false s t ({ journal := t.journal, outside := () } : Trail Unit) :=
    ⟨ht.1, ht.2, (by simp), interleaved_refl o _⟩
  have hafresh := sound_nestAfresh (K := fun _ : Unit => True) ho limit p v handedOn hv hh
    { journal := t.journal, outside := () } trivial
  -- What is left of a lapse is that the owner is gone, which is no type mismatch.
  rcases nest_simulates limit hm hnests v handedOn t _ htracks with
    ⟨e, hrun, hlapse⟩ | ⟨hresult, htrail⟩
  · refine ⟨⟨hlapse.consistent, hlapse.keeps⟩, ?_⟩
    rw [hrun, hlapse.dropped]
    exact fun h => h
  · refine ⟨⟨htrail.consistent, htrail.keeps⟩, ?_⟩
    rw [hresult]
    exact hafresh.2

/-! ## §3. Calls -/

theorem sound_handlers (ho : o.Sound) (hm : mapper? s id = some m) :
    m.spec.SoundHandlers o.schema (o.Kept s) (o.nest o.nestingLimit id) := by
  intro i p hnests
  exact sound_nest ho _ hm hnests

/-- An invocation of any instance, with arguments of its types. -/
theorem typed_invoke (ho : o.Sound) {t : Trail State} (h : o.Consistent t.outside)
    (hm : mapper? t.outside id = some m) {i : Invocation}
    (hi : i.Typed o.schema (.record m.spec.source) (.record m.spec.destination)) :
    (o.invoke id i t).1.Typed o.schema (.record m.spec.destination) := by
  obtain ⟨c, hc, hcompile⟩ := h.compiled id m hm
  rw [invoke_eq hm]
  exact m.typed_invoke (ho.typed hc hcompile) (sound_handlers ho hm) hi ⟨h, .refl _⟩

/-- A call of a pairing, with arguments of its types. -/
theorem typed_call (ho : o.Sound) {t : Trail State} (h : o.Consistent t.outside) {i : Invocation}
    (hi : i.Typed o.schema p.source p.destination) {r : Outcome}
    (hr : (o.call p i t).1 = .ok r) : r.Typed o.schema p.destination := by
  obtain ⟨hadv, hserves⟩ := request_spec h p
  unfold call at hr
  rcases hrequest : o.request p t with ⟨e | id, t'⟩
  · rw [hrequest] at hr
    cases hr
  · rw [hrequest] at hr hadv hserves
    cases hr
    obtain ⟨m, hm, hp⟩ := hserves
    obtain ⟨_, _, _, hsource, hdest⟩ := compiled_of_mapperOf hp
    rw [← hsource, ← hdest] at hi
    rw [← hdest]
    exact typed_invoke ho hadv.consistent hm hi

/-- A configuration of members only is sound if its members are. -/
theorem sound_of_members {source destination : String} {members : List MemberConfig}
    (horigins : ∀ m ∈ members, ∀ u ∈ m.origins, u.Sound σ source destination)
    (hsentinels : ∀ m ∈ members, ∀ v ∈ m.sentinel, v.WellFormed σ) :
    ({ source, destination, members } : Config).Sound σ where
  converters _ h := by cases h
  constants _ h := by cases h
  sentinels _ h := by cases h
  origins := horigins
  memberSentinels := hsentinels
  factory _ h := by cases h
  before _ h := by cases h
  after _ h := by cases h

theorem sound_notesOwner : notesOwner.Sound := by
  have hdefaults : notesOwner.defaults.Sound noteSchema := by
    constructor <;> exact fun _ h => nomatch h
  have hview : noteView.Sound noteSchema := by
    refine sound_of_members (fun m hm u hu => ?_) (fun m hm v hv => ?_)
    · cases List.mem_singleton.mp hm
      cases hu
    · cases List.mem_singleton.mp hm
      cases hv
      exact .text "none"
  have hsheet : pageSheet.Sound noteSchema := by
    refine sound_of_members (fun m hm u hu => ?_) (fun m hm v hv => ?_)
    · cases List.mem_singleton.mp hm
      cases List.mem_singleton.mp hu
      trivial
    · cases List.mem_singleton.mp hm
      cases hv
  refine ⟨fun c hc => ?_, hdefaults⟩
  rcases List.mem_cons.mp hc with rfl | hc
  · exact hview
  · cases List.mem_singleton.mp hc
    exact hsheet

/-- **Type soundness**, for an owner whose callbacks keep to their declared types.

1. Whatever conversion is found between two types, it takes well-typed values of
   the one to well-typed values of the other, over sound handlers for the mappers
   it nests, and never fails with a type mismatch.
2. The owner's handlers are sound, along its links in every state ever reached and
   without memory.
3. So every invocation of a mapping that resolves has a well-typed outcome for
   well-typed arguments,
4. and so has every invocation of an instance of the owner and every call, after
   any operations. -/
theorem type_soundness (o : Owner) (ho : o.Sound) :
    (∀ (S : Scope) (a b : Ty) (c : Conversion), S.Sound o.schema →
      (S.resolve a b = some c ∨ ∃ profile, Scope.nesting profile a b = some c) →
      ∀ (ω : Type) (K : ω → Prop) (nest : Nesting ω),
        (∀ p ∈ c.pairings, Nesting.Sound o.schema K nest p) →
      ∀ (parameter handedOn : Option Value) (v : Value) (call : Call ω),
        ParameterWellFormed o.schema parameter → ParameterWellFormed o.schema handedOn →
        v.HasType o.schema a → call.WellFormed o.schema K →
        let (r, call') := (c.run o.schema parameter handedOn nest v).run call
        call'.WellFormed o.schema K ∧ (∀ e, r = .error e → ¬ e.IsTypeMismatch) ∧
          ∀ w, r = .ok (some w) → w.HasType o.schema b) ∧
    ((∀ (ω : Type) (limit : Nat) (p : Pairing),
        Nesting.Sound o.schema (fun _ : ω => True) (o.nestAfresh limit) p) ∧
      ∀ (ops : List Operation) (id : Nat) (m : Mapper) (i : Nat) (p : Pairing),
        mapper? (o.after ops) id = some m → m.spec.NestsAt i p →
        Nesting.Sound o.schema (o.Kept (o.after ops)) (o.nest o.nestingLimit id i) p) ∧
    (∀ (c : Config) (session : Session) (spec : Specification), c.Sound o.schema →
      (c.resolve o.schema o.defaults session).result = .ok spec →
      ∀ (ω : Type) (K : ω → Prop) (nest : Nat → Nesting ω), spec.SoundHandlers o.schema K nest →
      ∀ (i : Invocation) (t : Trail ω),
        i.Typed o.schema (.record spec.source) (.record spec.destination) → K t.outside →
        ((Mapper.mk spec).invoke o.schema nest i t).1.Typed o.schema (.record spec.destination)) ∧
    (∀ (ops : List Operation) (i : Invocation) (journal : Journal),
      (∀ id m, mapper? (o.after ops) id = some m →
        i.Typed o.schema (.record m.spec.source) (.record m.spec.destination) →
        (o.invoke id i { journal, outside := o.after ops }).1.Typed o.schema
          (.record m.spec.destination)) ∧
      ∀ p r, i.Typed o.schema p.source p.destination →
        (o.call p i { journal, outside := o.after ops }).1 = .ok r →
        r.Typed o.schema p.destination) := by
  refine ⟨?_, ⟨?_, ?_⟩, ?_, ?_⟩
  · intro S a b c hS hc ω K nest hnest parameter handedOn v call hp hh hv hcall
    have hjoins : c.Joins (·.Sound o.schema) a b := by
      rcases hc with hresolve | ⟨profile, hnesting⟩
      · exact Scope.joins_resolve hS.satisfies hresolve
      · exact Scope.joins_nesting hnesting
    obtain ⟨hkept, hresult⟩ := hjoins.typed_run hnest hp hh hv call hcall
    rcases hrun : (c.run o.schema parameter handedOn nest v).run call with ⟨e | w, call'⟩
    · rw [hrun] at hkept hresult
      refine ⟨hkept, ?_, (fun _ h => nomatch h)⟩
      rintro _ ⟨⟩
      exact hresult
    · rw [hrun] at hkept hresult
      refine ⟨hkept, (fun _ h => nomatch h), ?_⟩
      rintro w ⟨⟩
      exact hresult w rfl
  · intro ω limit p
    exact sound_nestAfresh ho limit p
  · intro ops id m i p hm hnests
    exact sound_nest ho _ hm hnests
  · intro c session spec hc hspec ω K nest hnest i t hi ht
    have htyped := hc.typed ho.defaults (Config.resolved_of_ok hspec)
    exact (Mapper.mk spec).typed_invoke htyped hnest hi ht
  · intro ops i journal
    have hcons := consistent_after o ops
    refine ⟨?_, ?_⟩
    · intro id m hm hi
      exact typed_invoke (t := { journal, outside := o.after ops }) ho hcons hm hi
    · intro p r hi hr
      exact typed_call (t := { journal, outside := o.after ops }) ho hcons hi hr

/-- A note without a label is viewed as a well-typed view. -/
theorem type_soundness_note :
    let note : Value := .record "Note" [.absent (.prim .text)]
    let notes : Pairing := ⟨.record "Note", .record "View", none⟩
    notesOwner.Sound ∧ note.HasType noteSchema (.record "Note") ∧
      ∃ r, (notesOwner.call notes (.construct note) { outside := notesOwner.start }).1 = .ok r ∧
        r.Typed noteSchema (.record "View") := by
  intro note notes
  have hcall := call_of_ok (consistent_start notesOwner) rfl mapperOf_note (i := .construct note) rfl
  have h := type_soundness notesOwner sound_notesOwner
  have hoperations := h.2.2.2 [] (.construct note) {}
  exact ⟨sound_notesOwner, hasType_note, _, hcall, hoperations.2 notes _ hasType_note hcall⟩

end Owner

end RecordMap
