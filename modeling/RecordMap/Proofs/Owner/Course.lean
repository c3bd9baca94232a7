import RecordMap.Proofs.Mapper.Stages
import RecordMap.Proofs.Nesting.Attended
import RecordMap.Proofs.Owner.Indexed
import RecordMap.Proofs.Owner.Nesting
import RecordMap.Proofs.Plan.Settings
import RecordMap.Proofs.Plan.WellFormed

/-!
# The course of a call

The callbacks of one call are run in a fixed order: the factory, the hooks in front, the
guards, the members with their conditions, providers and converters, and the hooks
behind.  `Owner.callbacks_in_order` says so for every call of a compiled mapping: its own
callbacks are the front part of its schedule, and all of it if the call succeeds.

A call can fail in other ways than in its callbacks, as in a conversion that is built in.
So it may fail although all of its schedule has been run
(`Owner.failure_after_last_callback`).
-/

namespace RecordMap

/-! ## §1. What is configured -/

namespace Config

variable {σ : Schema} {c : Config} {d : Defaults} {spec : Specification} {session : Session}

/-- **A specification lays out the callbacks of its configuration**: in the order in
which they were configured, and the members by priority and declaration. -/
structure LaysOut (c : Config) (spec : Specification) : Prop where
  factory : spec.creation.callbacks = c.factory.toList.map .factory
  before : spec.before = c.before
  guards : spec.guards = c.guards
  after : spec.after = c.after
  sorted : spec.members.Pairwise fun m n =>
    m.order < n.order ∨ m.order = n.order ∧ m.declaration < n.declaration
  members : ∀ m ∈ spec.members, m.order = (c.settings m.member).order.getD 0 ∧
    m.conditions = (c.settings m.member).conditions

/-- A planned member has the priority and the conditions that are set for it. -/
theorem settings_of_fateOf {i : Nat} {f : RecordMap.Field} {plan : MemberPlan}
    (h : (c.fateOf σ d i f).1 = .planned plan) :
    plan.order = (c.settings plan.member).order.getD 0 ∧
      plan.conditions = (c.settings plan.member).conditions := by
  obtain ⟨fs, j, -, hcomes⟩ := comes_of_fateOf h
  cases hcomes with
  | constant => exact ⟨rfl, rfl⟩
  | read => exact ⟨rfl, rfl⟩

/-- **A configuration that resolves** is laid out in its specification. -/
theorem laysOut_of_ok (h : (c.resolve σ d session).result = .ok spec) : c.LaysOut spec where
  factory := by
    rw [(resolved_of_ok h).creation, creation]
    cases c.factory with
    | some f => rfl
    | none =>
      dsimp only
      split <;> rfl
  before := (resolved_of_ok h).before
  guards := by
    rw [(resolve_ok_iff.mp h).2]
    rfl
  after := (resolved_of_ok h).after
  sorted := (wellFormed_of_ok h).sorted
  members := by
    intro m hm
    obtain ⟨i, f, -, hfate⟩ := (resolved_of_ok h).planned m hm
    exact settings_of_fateOf hfate

end Config

namespace Owner

variable {o : Owner} {id : Nat} {m : Mapper} {t : Trail State} {i : Invocation}

/-! ## §2. Nested calls add to the journal -/

/-- A request adds the entries of a build to the journal, or none. -/
theorem extends_request (p : Pairing) (t : Trail State) :
    t.journal.entries <+: (o.request p t).2.journal.entries := by
  cases hc : o.choose? p with
  | none =>
    rw [request_of_unknown hc]
  | some c =>
    cases hfind : t.outside.registry.find? c.pairing with
    | some id =>
      rw [request_of_hit hc hfind]
    | none =>
      have happend : t.journal.entries <+: (t.journal ++ (o.compile c).2).entries := by
        rw [Journal.entries_append]
        exact List.prefix_append _ _
      cases hcompile : (o.compile c).1 with
      | ok m =>
        rw [request_of_built hc hfind hcompile]
        exact happend
      | error e =>
        rw [request_of_failed hc hfind hcompile]
        exact happend

theorem extends_follow (member : Nat × Nat) (p : Pairing) (t : Trail State) :
    t.journal.entries <+: ((o.follow member p).run t).2.journal.entries := by
  cases hlink : t.outside.links.lookup member with
  | some child => rw [run_follow_of_linked hlink]
  | none =>
    cases halive : t.outside.alive with
    | false => rw [run_follow_of_dropped hlink halive]
    | true =>
      rw [run_follow_of_unlinked hlink halive]
      have hrequest := extends_request (o := o) p t
      rcases hr : o.request p t with ⟨e | child, t'⟩
      · rw [hr] at hrequest
        exact hrequest
      · rw [hr] at hrequest
        exact hrequest

/-- **Nested calls only add to the journal.** -/
theorem extends_nest (o : Owner) (limit id j : Nat) : (o.nest limit id j).Extends := by
  induction limit generalizing id j with
  | zero => exact fun _ _ _ _ => List.prefix_rfl
  | succ limit ih =>
    intro p v q t
    have hfollow := extends_follow (o := o) (id, j) p t
    unfold nest
    rcases hrun : (o.follow (id, j) p).run t with ⟨e | child, t'⟩
    · rw [Run.run_bind_error hrun]
      rw [hrun] at hfollow
      exact hfollow
    · rw [Run.run_bind_ok hrun]
      rw [hrun] at hfollow
      cases hm : mapper? t'.outside child with
      | none =>
        rw [Run.run_bind_error (run_mapper_of_missing hm)]
        exact hfollow
      | some m =>
        rw [Run.run_bind_ok (run_mapper hm)]
        exact hfollow.trans (m.extends_constructAny (ih child) v q t')

/-! ## §3. The course of a call -/

/-- The handlers of an instance, attended. -/
def attending (o : Owner) (id member : Nat) : Nesting (Attended State) :=
  (o.nest o.nestingLimit id member).attended

/-- **An attended invocation**: its own entries are told from those of nested calls. -/
def attended (o : Owner) (id : Nat) (i : Invocation) (t : Trail State) :
    Outcome × Trail (Attended State) :=
  match mapper? t.outside id with
  | some m => m.invoke o.schema (o.attending id) i t.attended
  | none => (lost i, t.attended)

/-- Being attended makes no difference to an invocation. -/
theorem attended_spec (o : Owner) (id : Nat) (i : Invocation) (t : Trail State) :
    (o.attended id i t).1 = (o.invoke id i t).1 ∧
      Attended.Follows (o.invoke id i t).2 (o.attended id i t).2 := by
  unfold attended
  cases hm : mapper? t.outside id with
  | none =>
    rw [invoke_of_missing hm]
    exact ⟨rfl, rfl, rfl⟩
  | some m =>
    rw [invoke_eq hm]
    have hmatch := m.invoke_matches (σ := o.schema) Attended.keepsNotes_follows
      (fun j p _ => (o.nest o.nestingLimit id j).simulates_attended p) i
      (⟨rfl, rfl⟩ : Attended.Follows t t.attended)
    rcases hmatch with ⟨_, _, hno⟩ | ⟨houtcome, hfollows⟩
    · exact hno.elim
    · exact ⟨houtcome.symm, hfollows⟩

/-- **Callbacks run in order, and completely.**  For every call that a compiled mapping
admits, in whatever shape, nested calls can be told from it without a difference to what
it does.  Then its own entries in the journal are those of callbacks that are run in its
course:

1. the call goes through its stages one after the other: the creation of a destination,
   for a call that constructs, the hooks in front, the guards, the members if all guards
   are met, and the hooks behind, each in the order of the configuration, members by their
   priority and then their declaration;
2. the callbacks due at a stage are the factory, the hook, the guards up to the first
   that is not met, and for a member its conditions up to the first that is not met and,
   if all are met, its provider and its converter for each element that is converted;
3. a stage that succeeds has run all callbacks due at it; one that fails has run them up
   to somewhere, is what the call fails with, and is the last;
4. so what is run is the front part of the schedule of these stages, and all of it if
   the call succeeds;
5. no hook is run twice, and if the call succeeds each is run once.

A call without a source runs none of them and succeeds. -/
theorem callbacks_in_order {c : Config} (hcompile : (o.compile c).1 = .ok m)
    (hid : mapper? t.outside id = some m) (hadmitted : m.rejection? o.schema i = none) :
    c.LaysOut m.spec ∧
    (o.attended id i t).1 = (o.invoke id i t).1 ∧
    Attended.Follows (o.invoke id i t).2 (o.attended id i t).2 ∧
    ∃ ran, Trail.Owns t.journal (o.attended id i t).2 (ran.map Callback.label) ∧
      match i.source? with
      | none => ran = [] ∧ (o.invoke id i t).1.failure? = none
      | some source =>
        let u := m.setup o.schema (o.attending id) i source
        let stages := m.stages o.schema (o.attending id) i source
        let start := m.start o.schema i t.attended
        (o.attended id i t).2 = ((stages.forM u.run).run start).2.call.trail ∧
        u.Course stages start ran (o.invoke id i t).1.failure? ∧
        ran <+: u.schedule stages start ∧
        ((o.invoke id i t).1.failure? = none → ran = u.schedule stages start) ∧
        ran.filterMap Callback.hook? <+: c.before ++ c.after ∧
        ((o.invoke id i t).1.failure? = none →
          ran.filterMap Callback.hook? = c.before ++ c.after) := by
  have hlaid := Config.laysOut_of_ok (resolve_of_compile hcompile)
  obtain ⟨houtcome, hfollows⟩ := o.attended_spec id i t
  refine ⟨hlaid, houtcome, hfollows, ?_⟩
  have hattended : o.attended id i t = m.invoke o.schema (o.attending id) i t.attended := by
    unfold attended
    rw [hid]
  rw [← houtcome, hattended]
  cases hs : i.source? with
  | none =>
    obtain ⟨r, hr, hinvoke⟩ := Mapper.invoke_of_absent o.schema m hs
    rw [hinvoke]
    exact ⟨[], t.owns_attended, rfl, hr⟩
  | some source =>
    have hquiet : ∀ j, (o.attending id j).Quiet (Trail.Owns t.journal) :=
      fun j => Nesting.quiet_attended (o.extends_nest o.nestingLimit id j) t.journal
    obtain ⟨ran, hcourse, htold⟩ :=
      Mapper.course_of_admitted (Trail.tellsNotes_owns t.journal) hquiet hadmitted hs t.attended
    have hhooks : ((m.setup o.schema (o.attending id) i source).schedule
        (m.stages o.schema (o.attending id) i source)
        (m.start o.schema i t.attended)).filterMap Callback.hook? = c.before ++ c.after := by
      rw [Setup.hooks_schedule, Mapper.stages, Setup.hooks_stages, ← hlaid.before, ← hlaid.after]
      rfl
    have htrail := (Mapper.invoke_stages (o.attending id) hadmitted hs t.attended).2
    refine ⟨ran, htold [] t.owns_attended, htrail, hcourse, hcourse.isPrefix_schedule,
      fun hok => ?_, ?_, fun hok => ?_⟩
    · rw [hok] at hcourse
      exact hcourse.eq_schedule
    · rw [← hhooks]
      exact hcourse.isPrefix_schedule.filterMap _
    · rw [hok] at hcourse
      rw [hcourse.eq_schedule, hhooks]

/-- Gauges with a wide level, and dials with a narrow one. -/
def gaugeSchema : Schema where
  naming := ⟨"Text", "Option", "List"⟩
  record
    | "Gauge" => { fields := [{ name := "level", type := .prim (.int .i32) }] }
    | "Dial" => { fields := [{ name := "level", type := .prim (.int .u8) }] }
    | _ => {}
  enum _ := { first := { name := "", underlying := 0 } }
  rank _ := 0
  contains_lt := by
    rintro r r' ⟨f, hf, ht⟩
    split at hf <;> simp at hf <;> simp [hf] at ht

/-- Dials of gauges, with a hook in front. -/
def gaugeDial : Config where
  source := "Gauge"
  destination := "Dial"
  before := [{ label := some "start", body := .plain fun _ destination => destination }]

/-- The plan of the level. -/
def levelPlan : MemberPlan where
  member := "level"
  type := .prim (.int .u8)
  declaration := 0
  strategy := .viaConverter
  production := .read (.path { head := 0, terminal := .prim (.int .i32), names := ["level"] })
    (.primitive (.int .i32) (.int .u8)) none

/-- The mapper of gauges. -/
def dialMapper : Mapper where
  spec := {
    source := "Gauge", destination := "Dial", members := [levelPlan], before := gaugeDial.before }

/-- An owner of that mapping alone. -/
def dialOwner : Owner where
  schema := gaugeSchema
  configs := [gaugeDial]
  hash _ := 0

theorem compile_gaugeDial : (dialOwner.compile gaugeDial).1 = .ok dialMapper := by
  have hverdicts : gaugeDial.verdicts gaugeSchema {} = [(.planned levelPlan, {})] := by
    with_unfolding_all rfl
  show Except.map Mapper.mk (gaugeDial.resolve gaugeSchema {} _).result = _
  unfold Config.resolve
  rw [hverdicts]
  with_unfolding_all rfl

/-- The state of the owner once the mapper has been built. -/
def dialing : Trail State where
  outside := dialOwner.after [.request ⟨.record "Gauge", .record "Dial", none⟩]

theorem mapper?_dialing : mapper? dialing.outside 0 = some dialMapper :=
  mapper?_after_request compile_gaugeDial

theorem attended_dialing (i : Invocation) : dialOwner.attended 0 i dialing =
    dialMapper.invoke gaugeSchema (dialOwner.attending 0) i dialing.attended := by
  unfold attended
  rw [mapper?_dialing]
  rfl

/-- A level that fits is set once the hook has been run. -/
theorem callbacks_in_order_dial :
    let call : Invocation := .construct (.record "Gauge" [.int .i32 30])
    (dialOwner.compile gaugeDial).1 = .ok dialMapper ∧
      mapper? dialing.outside 0 = some dialMapper ∧
      dialMapper.rejection? dialOwner.schema call = none ∧
      (dialOwner.invoke 0 call dialing).1.failure? = none ∧
      ∃ ran : List Callback, Trail.Owns dialing.journal (dialOwner.attended 0 call dialing).2
          (ran.map Callback.label) ∧
        ran.filterMap Callback.hook? = gaugeDial.before := by
  intro call
  have hadmitted : dialMapper.rejection? dialOwner.schema call = none := rfl
  obtain ⟨-, hsame, -, ran, howns, -, -, -, -, -, hhooks⟩ :=
    callbacks_in_order compile_gaugeDial mapper?_dialing hadmitted
  have hok : (dialOwner.invoke 0 call dialing).1.failure? = none := by
    rw [← hsame, attended_dialing]
    with_unfolding_all rfl
  exact ⟨compile_gaugeDial, mapper?_dialing, hadmitted, hok, ran, howns, hhooks hok⟩

/-- **A failure after the last callback.**  The hook is all that is due, and it has been
run; then the level turns out to be out of range. -/
theorem failure_after_last_callback :
    let call : Invocation := .construct (.record "Gauge" [.int .i32 300])
    let u := dialMapper.setup dialOwner.schema (dialOwner.attending 0) call
      (.record "Gauge" [.int .i32 300])
    (dialOwner.compile gaugeDial).1 = .ok dialMapper ∧
      mapper? dialing.outside 0 = some dialMapper ∧
      dialMapper.rejection? dialOwner.schema call = none ∧
      (u.schedule (u.stages true) (dialMapper.start gaugeSchema call dialing.attended)).map
        Callback.label = [some "start"] ∧
      (dialOwner.attended 0 call dialing).2.own = [some "start"] ∧
      (dialOwner.invoke 0 call dialing).1.failure? =
        some (.conversion "i32" "u8" "300 is out of range for u8") := by
  intro call u
  have hattended : (dialOwner.attended 0 call dialing).2.own = [some "start"] := by
    rw [attended_dialing]
    with_unfolding_all rfl
  refine ⟨compile_gaugeDial, mapper?_dialing, rfl, ?_, hattended, ?_⟩
  · with_unfolding_all rfl
  · rw [← (dialOwner.attended_spec 0 call dialing).1, attended_dialing]
    with_unfolding_all rfl

end Owner

end RecordMap
