import RecordMap.Proofs.Mapper.Entry
import RecordMap.Proofs.Owner.Nesting

/-!
# Constructing and updating

A constructing call shares one context between the creation of the destination and
the rest, while an updating call has a context of its own.  That makes no difference:
whatever creates a destination leaves the scratch store empty
(`Specification.run_create`), so a construction is a creation followed by an update
of what was created (`Specification.construct_eq`), with every callback run in the
same order on the same data.
-/

namespace RecordMap

variable {ω : Type} {σ : Schema} {parameter : Option Value} {source : Value}
  {nest : Nat → Nesting ω}

/-! ## §1. Creation -/

/-- A factory enters its label at most, and leaves all else as it is. -/
theorem Factory.ensures_make (f : Factory) (scratch : Scratch) (w : ω) :
    Run.Ensures (fun c : Call ω => c.scratch = scratch ∧ c.trail.outside = w) (fun _ => True)
      (fun _ => True) (f.make σ parameter source) := by
  have hnote : Run.Ensures (fun c : Call ω => c.scratch = scratch ∧ c.trail.outside = w)
      (fun _ => True) (fun _ => True) (Call.note f.label) := .modify fun _ h => h
  unfold Factory.make
  cases f.body with
  | source g => exact hnote.bind fun _ _ => .pure trivial
  | parameter t g =>
    refine .bind (Q := fun _ => True) ?_ fun a _ => hnote.bind fun _ _ => .pure trivial
    exact .require (fun _ _ => trivial) fun _ => trivial

namespace Specification

variable (s : Specification)

theorem ensures_create (scratch : Scratch) (w : ω) :
    Run.Ensures (fun c : Call ω => c.scratch = scratch ∧ c.trail.outside = w) (fun _ => True)
      (fun _ => True) (s.create σ parameter source) := by
  unfold create
  split
  · exact Factory.ensures_make _ scratch w
  · exact .require (fun _ _ => trivial) fun _ => trivial
  · exact .pure trivial

/-- **Creating a destination** as a call of its own. -/
def creating (σ : Schema) (s : Specification) (parameter : Option Value) (source : Value) :
    Run (Trail ω) Value :=
  Run.zoom (fun t => ({ trail := t } : Call ω)) (fun _ c => c.trail) (s.create σ parameter source)

/-- What creating leaves of the trail: only its journal may be longer. -/
theorem outside_creating (t : Trail ω) :
    ((s.creating σ parameter source).run t).2.outside = t.outside := by
  have hensures : Run.Ensures _ _ _ (s.create σ parameter source) := s.ensures_create {} t.outside
  exact (hensures { trail := t } ⟨rfl, rfl⟩).1.2

/-- Creation leaves the store of the call as it found it, which is empty. -/
theorem run_create (t : Trail ω) :
    (s.create σ parameter source).run { trail := t } =
      (((s.creating σ parameter source).run t).1,
        { trail := ((s.creating σ parameter source).run t).2 }) := by
  have hensures : Run.Ensures _ _ _ (s.create σ parameter source) := s.ensures_create {} t.outside
  have hscratch := (hensures { trail := t } ⟨rfl, rfl⟩).1.1
  unfold creating
  rw [Run.run_zoom]
  rcases hrun : (s.create σ parameter source).run { trail := t } with ⟨r, scratch, trail⟩
  rw [hrun] at hscratch
  cases hscratch
  rfl

/-! ## §2. Construction -/

/-- **Construction** is creation, followed by an update of what was created. -/
theorem construct_eq (t : Trail ω) :
    (s.construct σ nest parameter source).run t =
      match (s.creating σ parameter source).run t with
      | (.error e, t₁) => (.error e, t₁)
      | (.ok start, t₁) =>
          match (s.update σ nest parameter source).run { destination := start, trail := t₁ } with
          | (.error e, u) => (.error e, u.trail)
          | (.ok (), u) => (.ok u.destination, u.trail) := by
  unfold construct
  rw [Run.run_zoom, Run.run_bind, run_create]
  rcases (s.creating σ parameter source).run t with ⟨e | start, t₁⟩
  · rfl
  · -- From here on both calls have an empty store and the same destination.
    dsimp only
    unfold update
    rw [Run.run_zoom, Run.run_zoom, Run.run_bind]
    rcases (s.body σ nest parameter source).run { destination := start, call := { trail := t₁ } }
      with ⟨e | u, a⟩
    · rfl
    · rfl

end Specification

/-- **A construction agrees with an update** of what is created.  It succeeds with a
value just if both succeed and leave that value, and otherwise it fails with the
failure of the first that fails.  In either case it leaves the trail the two leave:
the callbacks run, and all that lies outside. -/
structure ConstructsAs (create : Run (Trail ω) Value) (update : Run (Specification.Updating ω) Unit)
    (construct : Run (Trail ω) Value) : Prop where
  ok_iff : ∀ t d t', construct.run t = (.ok d, t') ↔
    ∃ start t₁, create.run t = (.ok start, t₁) ∧
      update.run { destination := start, trail := t₁ } =
        (.ok (), { destination := d, trail := t' })
  error_iff : ∀ t e t', construct.run t = (.error e, t') ↔
    create.run t = (.error e, t') ∨
      ∃ start t₁ d, create.run t = (.ok start, t₁) ∧
        update.run { destination := start, trail := t₁ } =
          (.error e, { destination := d, trail := t' })

theorem ConstructsAs.of_run_eq {create construct : Run (Trail ω) Value}
    {update : Run (Specification.Updating ω) Unit}
    (h : ∀ t, construct.run t =
      match create.run t with
      | (.error e, t₁) => (.error e, t₁)
      | (.ok start, t₁) =>
          match update.run { destination := start, trail := t₁ } with
          | (.error e, u) => (.error e, u.trail)
          | (.ok (), u) => (.ok u.destination, u.trail)) :
    ConstructsAs create update construct := by
  -- Three cases on both sides: creation fails, the update fails, or neither does.
  constructor
  · intro t d t'
    rw [h]
    rcases hcreate : create.run t with ⟨e | start, t₁⟩
    · exact ⟨nofun, nofun⟩
    · dsimp only
      rcases hupdate : update.run { destination := start, trail := t₁ } with ⟨e | u, u'⟩
      · refine ⟨nofun, ?_⟩
        rintro ⟨_, _, ⟨⟩, hok⟩
        rw [hupdate] at hok
        cases hok
      · constructor
        · rintro ⟨⟩
          exact ⟨start, t₁, rfl, hupdate⟩
        · rintro ⟨_, _, ⟨⟩, hok⟩
          rw [hupdate] at hok
          cases hok
          rfl
  · intro t e t'
    rw [h]
    rcases hcreate : create.run t with ⟨e' | start, t₁⟩
    · constructor
      · rintro ⟨⟩
        exact .inl rfl
      · rintro (⟨⟨⟩⟩ | ⟨_, _, _, ⟨⟩, _⟩)
        rfl
    · dsimp only
      rcases hupdate : update.run { destination := start, trail := t₁ } with ⟨e' | u, u'⟩
      · constructor
        · rintro ⟨⟩
          exact .inr ⟨start, t₁, u'.destination, rfl, hupdate⟩
        · rintro (⟨⟨⟩⟩ | ⟨_, _, _, ⟨⟩, herror⟩)
          rw [hupdate] at herror
          cases herror
          rfl
      · refine ⟨nofun, ?_⟩
        rintro (⟨⟨⟩⟩ | ⟨_, _, _, ⟨⟩, herror⟩)
        rw [hupdate] at herror
        cases herror

/-! ## §3. Entries -/

theorem Specification.constructsAs (s : Specification) (nest : Nat → Nesting ω)
    (parameter : Option Value) (source : Value) :
    ConstructsAs (s.creating σ parameter source) (s.update σ nest parameter source)
      (s.construct σ nest parameter source) :=
  .of_run_eq s.construct_eq

/-- The outcome of an update as that of the construction it completes. -/
def Outcome.asConstruction : Outcome → Outcome
  | updated d none => constructed (some d)
  | updated _ (some e) => failed e
  | r => r

/-- What comes of creating a destination, and then of the call that updates it. -/
def Outcome.afterCreating (create : Run (Trail ω) Value)
    (update : Value → Trail ω → Outcome × Trail ω) (t : Trail ω) : Outcome × Trail ω :=
  match create.run t with
  | (.error e, t₁) => (failed e, t₁)
  | (.ok start, t₁) => ((update start t₁).1.asConstruction, (update start t₁).2)

/-- An invocation that constructs comes to creating, and then to the invocation that
updates. -/
theorem Mapper.invoke_constructFrom_eq {m : Mapper}
    (hconstruct : m.rejection? σ (.constructFrom source parameter) = none)
    (hupdate : ∀ d, m.rejection? σ (.updateFrom source parameter d) = none) (t : Trail ω) :
    m.invoke σ nest (.constructFrom source parameter) t =
      Outcome.afterCreating (m.spec.creating σ parameter source)
        (fun start => m.invoke σ nest (.updateFrom source parameter start)) t := by
  rw [invoke_constructFrom hconstruct]
  unfold Outcome.constructing Outcome.afterCreating
  rw [Run.map_eq_bind, Run.run_bind, m.spec.construct_eq]
  rcases (m.spec.creating σ parameter source).run t with ⟨e | start, t₁⟩
  · rfl
  · dsimp only
    rw [invoke_updateFrom (hupdate start)]
    unfold Outcome.updating
    rcases (m.spec.update σ nest parameter source).run { destination := start, trail := t₁ }
      with ⟨e | u, u'⟩
    · rfl
    · rfl

/-- With both shapes compiled, constructing and updating are turned away alike. -/
theorem Mapper.rejection?_updateFrom {m : Mapper} (hshapes : ∀ shape, m.shapes.contains shape = true)
    (d : Value) : m.rejection? σ (.updateFrom source parameter d) =
      m.rejection? σ (.constructFrom source parameter) := by
  have hlack : ∀ shape, m.lack? σ shape = none := fun shape => if_pos (hshapes shape)
  cases parameter with
  | none => exact (hlack .update).trans (hlack .construct).symm
  | some p =>
    show (m.lack? σ .updateWith).or _ = (m.lack? σ .constructWith).or _
    rw [hlack, hlack]

/-! ## §4. The factory of a plan -/

/-- **What the plan creates destinations by**: the factory of the mapping, else the
one registered with the defaults for the type, else the zero of the type. -/
inductive Config.Creates (σ : Schema) (c : Config) (d : Defaults) (parameter : Option Value)
    (source : Value) : Run (Call ω) Value → Prop where
  | custom {f : Factory} (own : c.factory = some f) :
      Creates σ c d parameter source (f.make σ parameter source)
  | fallback {v : Value} (lacking : c.factory = none)
      (registered : d.factories.get? (.record c.destination) = some v) :
      Creates σ c d parameter source (pure v)
  | zero (lacking : c.factory = none)
      (unregistered : d.factories.get? (.record c.destination) = none) :
      Creates σ c d parameter source (pure (Value.zero σ (.record c.destination)))

theorem Config.Resolved.creates {c : Config} {d : Defaults} {spec : Specification}
    (h : c.Resolved σ d spec) (parameter : Option Value) (source : Value) :
    c.Creates σ d parameter source (spec.create σ parameter source : Run (Call ω) Value) := by
  unfold Specification.create
  rw [h.creation, h.destination]
  unfold Config.creation
  cases hfactory : c.factory with
  | some f => exact .custom hfactory
  | none =>
    cases hdefault : d.factories.get? (.record c.destination) with
    | some v =>
      have htype := ValueTable.type_of_get? hdefault
      dsimp only
      rw [← htype, Value.as?_type, Run.require_some]
      exact .fallback hfactory hdefault
    | none => exact .zero hfactory hdefault

namespace Owner

/-! ## §5. Instances -/

/-- **Construction agrees with update**, for every mapping that resolves, every source
and every parameter, be there one or not.

1. The plan creates destinations by the factory of the mapping, of the defaults or of
   the type.
2. The routine that constructs succeeds with a value just if creating succeeds and the
   routine that updates leaves that value, and else fails with the failure of the
   first of the two that fails.  The callbacks run are the same, and so is all they
   leave behind.
3. So it is for the entries of an instance, where both calls are admitted.
4. What an entry turns away has run no callback and changed nothing; with all shapes
   compiled, constructing and updating are turned away alike. -/
theorem construct_agrees_with_update (o : Owner) {c : Config} {session : Session}
    {spec : Specification} (h : (c.resolve o.schema o.defaults session).result = .ok spec)
    (source : Value) (parameter : Option Value) :
    (∀ ω : Type, c.Creates o.schema o.defaults parameter source
      (spec.create o.schema parameter source : Run (Call ω) Value)) ∧
    (∀ (ω : Type) (nest : Nat → Nesting ω),
      ConstructsAs (spec.creating o.schema parameter source)
        (spec.update o.schema nest parameter source)
        (spec.construct o.schema nest parameter source)) ∧
    (∀ (id : Nat) (t : Trail State), mapper? t.outside id = some ⟨spec⟩ →
      (Mapper.mk spec).rejection? o.schema (.constructFrom source parameter) = none →
      (∀ d, (Mapper.mk spec).rejection? o.schema (.updateFrom source parameter d) = none) →
      o.invoke id (.constructFrom source parameter) t =
        Outcome.afterCreating (spec.creating o.schema parameter source)
          (fun start => o.invoke id (.updateFrom source parameter start)) t) ∧
    (∀ (id : Nat) (t : Trail State), mapper? t.outside id = some ⟨spec⟩ →
      (∀ i e, (Mapper.mk spec).rejection? o.schema i = some e → o.invoke id i t = (i.refused e, t)) ∧
      ((∀ shape, spec.shapes.contains shape = true) → ∀ d,
        (Mapper.mk spec).rejection? o.schema (.updateFrom source parameter d) =
          (Mapper.mk spec).rejection? o.schema (.constructFrom source parameter))) := by
  refine ⟨?_, ?_, ?_, ?_⟩
  · intro ω
    exact (Config.resolved_of_ok h).creates parameter source
  · intro ω nest
    exact spec.constructsAs nest parameter source
  · intro id t hm hconstruct hupdate
    rw [invoke_eq hm, Mapper.invoke_constructFrom_eq hconstruct hupdate]
    unfold Outcome.afterCreating
    have houtside : ((spec.creating o.schema parameter source).run t).2.outside = t.outside :=
      spec.outside_creating t
    rcases hcreating : (spec.creating o.schema parameter source).run t with ⟨e | start, t₁⟩
    · rfl
    · -- The instance is still there after creating, to be invoked on what was created.
      rw [hcreating] at houtside
      have hm₁ : mapper? t₁.outside id = some ⟨spec⟩ := by
        rw [houtside]
        exact hm
      dsimp only
      rw [invoke_eq hm₁]
  · intro id t hm
    refine ⟨fun i e hrejected => ?_, fun hshapes d => Mapper.rejection?_updateFrom hshapes d⟩
    rw [invoke_eq hm]
    exact Mapper.invoke_of_rejection hrejected t

/-- The view of a note is what a view of nothing is updated to. -/
theorem construct_agrees_with_update_note :
    let note : Value := .record "Note" [.absent (.prim .text)]
    let notes : Pairing := ⟨.record "Note", .record "View", none⟩
    let spec : Specification := { source := "Note", destination := "View", members := [labelPlan] }
    let t : Trail State := { outside := notesOwner.after [.request notes] }
    mapper? t.outside 0 = some ⟨spec⟩ ∧
      notesOwner.invoke 0 (.construct note) t =
        Outcome.afterCreating (spec.creating noteSchema none note)
          (fun start => notesOwner.invoke 0 (.update note start)) t ∧
      (spec.construct noteSchema (fun _ => Conversion.unreachable) none note).run t =
        (.ok (.record "View" [.text "none"]), t) := by
  intro note notes spec t
  have hm : mapper? t.outside 0 = some ⟨spec⟩ := mapper?_after_request mapperOf_note
  have h := construct_agrees_with_update notesOwner (resolve_noteView "") note none
  refine ⟨hm, h.2.2.1 0 t hm rfl (fun _ => rfl), ?_⟩
  exact ((h.2.1 State fun _ => Conversion.unreachable).ok_iff t _ t).mpr ⟨_, t, rfl, rfl⟩

end Owner

end RecordMap
