import RecordMap.Proofs.Mapper.Entry
import RecordMap.Proofs.Mapper.Performs

/-!
# The stages of a call

A call goes through *stages*: a destination is created, the hooks in front are run, the
guards are asked, the members are assigned and the hooks behind are run.  Which stages
there are depends on nothing but the guards (`Setup.stages`): the members are left out
unless all guards are met.

`Setup.Course` is the way a call takes through its stages.  A stage that succeeds has
run all callbacks due at it, and the next one follows; a stage that fails has run some
of them, from the first on, and nothing follows.  Every call takes such a course
(`Setup.course`), so that what it runs is the front part of a schedule, and all of the
schedule if it succeeds (`Setup.Course.isPrefix_schedule`, `Setup.Course.eq_schedule`).
-/

namespace RecordMap

/-! ## §1. Stages -/

/-- **A stage of a call.** -/
inductive Stage where
  /-- A destination is created. -/
  | create
  | hook (h : Hook)
  /-- The conditions of the mapping as a whole are asked. -/
  | guards
  | member (m : MemberPlan)

/-- The hook run at a stage, if one is. -/
def Stage.hook? : Stage → Option Hook
  | hook h => some h
  | _ => none

/-- The hook a callback is, if it is one. -/
def Callback.hook? : Callback → Option Hook
  | hook h => some h
  | _ => none

/-- What a run fails with, if it fails. -/
def Run.failure? {α : Type} : Except MapError α → Option MapError
  | .ok _ => none
  | .error e => some e

/-- What a call is made with, apart from its destination. -/
structure Setup (ω : Type) where
  schema : Schema
  spec : Specification
  /-- The handlers for the mappers nested in each member. -/
  nest : Nat → Nesting ω
  parameter : Option Value
  source : Value

/-- The factory of a creation, if there is one. -/
def Creation.callbacks : Creation → List Callback
  | custom f => [.factory f]
  | _ => []

namespace Setup

variable {ω : Type} (u : Setup ω)

/-- What is done at a stage. -/
def run : Stage → Run (Assembly ω) Unit
  | .create => do
      let start ← Assembly.onCall (u.spec.create u.schema u.parameter u.source)
      modify fun a => { a with destination := start }
  | .hook h => h.run u.schema u.parameter u.source
  | .guards =>
      discard <| Assembly.onCall
        (Condition.allHold u.schema u.parameter u.source u.spec.guards)
  | .member m =>
      m.assign u.schema u.parameter (u.spec.handedOn u.parameter) (u.nest m.declaration)
        u.spec.source u.source

/-- **The callbacks due at a stage**, as it finds the assembly. -/
def due : Stage → Assembly ω → List Callback
  | .create, _ => u.spec.creation.callbacks
  | .hook h, _ => [.hook h]
  | .guards, _ => (Condition.asked u.parameter u.source u.spec.guards).map .condition
  | .member m, a =>
      m.due u.schema u.parameter u.spec.source u.source a.destination a.call.scratch

/-- All guards are met. -/
def isOpen : Bool := u.spec.guards.all (Condition.isMet u.parameter u.source)

/-- The stages that fill a destination. -/
def filling : List Stage :=
  u.spec.before.map .hook ++
    .guards :: ((if u.isOpen then u.spec.members.map .member else []) ++
      u.spec.after.map .hook)

/-- **The stages of a call**; one that constructs creates its destination first. -/
def stages (constructs : Bool) : List Stage :=
  if constructs then .create :: u.filling else u.filling

/-- **The schedule of stages**: the callbacks due at each of them, as it finds the
assembly when those before it have been run. -/
def schedule : List Stage → Assembly ω → List Callback
  | [], _ => []
  | stage :: rest, a => u.due stage a ++ schedule rest ((u.run stage).run a).2

/-- **The course of a call** through its stages: the callbacks that are run, and the
failure that ends it, if one does. -/
inductive Course : List Stage → Assembly ω → List Callback → Option MapError → Prop
  | done {a} : Course [] a [] none
  /-- A stage that succeeds has run all that is due at it. -/
  | next {stage rest a a' ran failure} (succeeds : (u.run stage).run a = (.ok (), a'))
      (further : Course rest a' ran failure) :
      Course (stage :: rest) a (u.due stage a ++ ran) failure
  /-- A stage that fails has run what is due up to somewhere, and nothing follows. -/
  | stop {stage rest a a' e ran} (fails : (u.run stage).run a = (.error e, a'))
      (begun : ran <+: u.due stage a) : Course (stage :: rest) a ran (some e)

/-! ## §2. Schedules -/

namespace Course

variable {u} {stages : List Stage} {a : Assembly ω} {ran : List Callback}
  {failure : Option MapError}

/-- **What is run is the front part of the schedule.** -/
theorem isPrefix_schedule (h : u.Course stages a ran failure) : ran <+: u.schedule stages a := by
  induction h with
  | done => exact List.prefix_rfl
  | next succeeds _ ih =>
    rw [schedule, succeeds]
    exact (List.prefix_append_right_inj _).mpr ih
  | stop _ begun => exact begun.trans (List.prefix_append _ _)

/-- **A call that succeeds runs the whole schedule.** -/
theorem eq_schedule (h : u.Course stages a ran none) : ran = u.schedule stages a := by
  generalize hnone : (none : Option MapError) = failure at h
  induction h with
  | done => rfl
  | next succeeds _ ih => rw [schedule, succeeds, ih hnone]
  | stop _ _ => cases hnone

end Course

/-- A value is produced by a provider and converters. -/
theorem hook?_of_production {σ : Schema} {parameter : Option Value} {recordName : String}
    {source destination : Value} {scratch : Scratch} {production : Production} {c : Callback}
    (hc : c ∈ production.due σ parameter recordName source destination scratch) :
    c.hook? = none := by
  cases production with
  | constant v => cases hc
  | read a k sentinel =>
    rcases List.mem_append.mp hc with hprovider | hconverter
    · cases a with
      | path p => cases hprovider
      | provider p =>
        rw [List.mem_singleton.mp hprovider]
        rfl
    · obtain ⟨v, _, hc⟩ := List.mem_flatMap.mp hconverter
      obtain ⟨_, _, hc⟩ := List.mem_flatMap.mp hc
      obtain ⟨_, _, rfl⟩ := List.mem_map.mp hc
      rfl

theorem hook?_of_conditions {cs : List Condition} {c : Callback}
    (hc : c ∈ cs.map Callback.condition) : c.hook? = none := by
  obtain ⟨_, _, rfl⟩ := List.mem_map.mp hc
  rfl

/-- Only the stage of a hook has a hook due at it. -/
theorem hooks_due (stage : Stage) (a : Assembly ω) :
    (u.due stage a).filterMap Callback.hook? = stage.hook?.toList := by
  cases stage with
  | create =>
    show u.spec.creation.callbacks.filterMap Callback.hook? = []
    cases u.spec.creation <;> rfl
  | hook h => rfl
  | guards => exact List.filterMap_eq_nil_iff.mpr fun _ => hook?_of_conditions
  | member m =>
    refine List.filterMap_eq_nil_iff.mpr fun c hc => ?_
    rcases List.mem_append.mp hc with hcondition | hproduction
    · exact hook?_of_conditions hcondition
    · split at hproduction
      · exact hook?_of_production hproduction
      · cases hproduction

/-- The hooks of a schedule are those of its stages, in their order. -/
theorem hooks_schedule (stages : List Stage) (a : Assembly ω) :
    (u.schedule stages a).filterMap Callback.hook? = stages.filterMap Stage.hook? := by
  induction stages generalizing a with
  | nil => rfl
  | cons stage rest ih =>
    rw [schedule, List.filterMap_append, ih, u.hooks_due]
    cases stage <;> rfl

/-- The hooks of a call are those in front and those behind. -/
theorem hooks_stages (constructs : Bool) :
    (u.stages constructs).filterMap Stage.hook? = u.spec.before ++ u.spec.after := by
  have hhooks : ∀ hooks : List Hook, (hooks.map Stage.hook).filterMap Stage.hook? = hooks := by
    intro hooks
    rw [List.filterMap_map]
    exact List.filterMap_some
  have hmembers : ∀ ms : List MemberPlan, (ms.map Stage.member).filterMap Stage.hook? = [] := by
    intro ms
    rw [List.filterMap_map]
    exact List.filterMap_eq_nil_iff.mpr fun _ _ => rfl
  have hguarded : (if u.isOpen then u.spec.members.map Stage.member else []).filterMap
      Stage.hook? = [] := by
    split
    · exact hmembers _
    · rfl
  have hfilling : u.filling.filterMap Stage.hook? = u.spec.before ++ u.spec.after := by
    unfold filling
    rw [List.filterMap_append, hhooks, List.filterMap_cons_none rfl, List.filterMap_append,
      hguarded, hhooks, List.nil_append]
  unfold stages
  split
  · exact hfilling
  · exact hfilling

/-! ## §3. Every call takes its course -/

variable {u} {told : Trail ω → List (Option String) → Prop}

theorem performs_create (htells : Trail.TellsNotes told) (a : Assembly ω) :
    Assembly.Performs told u.spec.creation.callbacks (u.run .create) a := by
  have hcreate : ∀ call : Call ω, Call.Performs told u.spec.creation.callbacks
      (u.spec.create u.schema u.parameter u.source) call := by
    intro call
    unfold Specification.create
    cases u.spec.creation with
    | custom f => exact f.performs_make htells u.source call
    | fallback v => exact .require _ _ call
    | zero => exact .pure _ call
  exact (Assembly.performs_onCall (hcreate a.call)).andThen fun start _ _ => .modify fun _ h => h

/-- **A stage** performs the callbacks due at it. -/
theorem performs_run (htells : Trail.TellsNotes told) (hquiet : ∀ i, (u.nest i).Quiet told)
    (stage : Stage) (a : Assembly ω) :
    Assembly.Performs told (u.due stage a) (u.run stage) a := by
  cases stage with
  | create => exact performs_create htells a
  | hook h => exact h.performs_run htells u.source a
  | guards =>
    have hguards : Call.Performs told ((Condition.asked u.parameter u.source u.spec.guards).map
        .condition) (Condition.allHold u.schema u.parameter u.source u.spec.guards) a.call :=
      Condition.performs_allHold htells u.spec.guards a.call
    exact (Assembly.performs_onCall hguards).map _
  | member m => exact m.performs_assign htells (hquiet m.declaration) a

/-- **Stages that are run one after the other take their course**, and what is run of
them is told. -/
theorem course (htells : Trail.TellsNotes told) (hquiet : ∀ i, (u.nest i).Quiet told)
    (stages : List Stage) (a : Assembly ω) :
    ∃ ran, u.Course stages a ran (Run.failure? ((stages.forM u.run).run a).1) ∧
      ∀ es, told a.call.trail es →
        told ((stages.forM u.run).run a).2.call.trail (es ++ ran.map Callback.label) := by
  induction stages generalizing a with
  | nil =>
    refine ⟨[], .done, fun es hes => ?_⟩
    rw [List.map_nil, List.append_nil]
    exact hes
  | cons stage rest ih =>
    obtain ⟨begun, hprefix, htold, hall⟩ := performs_run htells hquiet stage a
    rw [Run.forM_cons]
    rcases hrun : (u.run stage).run a with ⟨e | ⟨⟩, a'⟩
    · rw [Run.run_bind_error hrun]
      rw [hrun] at htold
      exact ⟨begun, .stop hrun hprefix, htold⟩
    · rw [Run.run_bind_ok hrun]
      rw [hrun] at htold hall
      obtain ⟨ran, hcourse, hrest⟩ := ih a'
      refine ⟨u.due stage a ++ ran, .next hrun hcourse, fun es hes => ?_⟩
      rw [List.map_append, ← List.append_assoc, ← hall () rfl]
      exact hrest _ (htold es hes)

/-! ## §4. Calls are made of stages -/

/-- The answer of the guards is whether all are met. -/
theorem isOpen_of_guards {a a' : Assembly ω} {b : Bool}
    (h : (Assembly.onCall (Condition.allHold u.schema u.parameter u.source u.spec.guards)).run a =
      (.ok b, a')) : b = u.isOpen := by
  rw [Assembly.onCall, Run.run_zoom] at h
  rcases hrun : (Condition.allHold u.schema u.parameter u.source u.spec.guards).run a.call
    with ⟨r, call⟩
  rw [hrun] at h
  cases h
  exact (Condition.run_allHold_ok hrun).1

/-- The body of a call goes through the stages that fill its destination. -/
theorem run_filling (a : Assembly ω) :
    (u.filling.forM u.run).run a =
      (u.spec.body u.schema u.nest u.parameter u.source).run a := by
  have hsplit : ∀ front back : List Stage, (front ++ back).forM u.run =
      front.forM u.run >>= fun _ => back.forM u.run := fun _ _ => List.forM_append
  have hhooks : ∀ hooks : List Hook, (hooks.map Stage.hook).forM u.run =
      hooks.forM fun h => h.run u.schema u.parameter u.source := fun hooks => List.forM_map
  have hmembers : (u.spec.members.map Stage.member).forM u.run =
      u.spec.assignMembers u.schema u.nest u.parameter u.source := List.forM_map
  unfold filling Specification.body
  rw [hsplit, hhooks, Run.forM_cons, hsplit, hhooks]
  rcases hbefore : (u.spec.before.forM fun h => h.run u.schema u.parameter u.source).run a
    with ⟨e | ⟨⟩, a₁⟩
  · rw [Run.run_bind_error hbefore, Run.run_bind_error hbefore]
  rw [Run.run_bind_ok hbefore, Run.run_bind_ok hbefore]
  show (((fun _ => ()) <$> Assembly.onCall _) >>= _).run a₁ = _
  rw [Run.map_eq_bind, bind_assoc]
  rcases hguards : (Assembly.onCall (Condition.allHold u.schema u.parameter u.source
    u.spec.guards)).run a₁ with ⟨e | b, a₂⟩
  · rw [Run.run_bind_error hguards, Run.run_bind_error hguards]
  rw [Run.run_bind_ok hguards, Run.run_bind_ok hguards, pure_bind, ← isOpen_of_guards hguards]
  cases b with
  | true =>
    rw [if_pos rfl, if_pos rfl, hmembers]
  | false => rfl

/-- **An update** goes through the stages that fill its destination. -/
theorem run_update (d : Value) (t : Trail ω) :
    Outcome.updating d (u.spec.update u.schema u.nest u.parameter u.source) t =
      let r := ((u.stages false).forM u.run).run { destination := d, call := { trail := t } }
      (.ofUpdate r.2.destination r.1, r.2.call.trail) := by
  unfold Outcome.updating Specification.update stages
  rw [Run.run_zoom, if_neg (by simp), run_filling]

theorem run_create (a : Assembly ω) :
    (u.run .create).run a =
      match (u.spec.create u.schema u.parameter u.source).run a.call with
      | (.ok start, call) => (.ok (), { destination := start, call })
      | (.error e, call) => (.error e, { a with call }) := by
  show (Assembly.onCall _ >>= _).run a = _
  rw [Run.run_bind, Assembly.onCall, Run.run_zoom]
  rcases (u.spec.create u.schema u.parameter u.source).run a.call with ⟨e | start, call⟩ <;> rfl

/-- **A construction** creates its destination, whatever stood in its place, and goes
through the stages that fill it. -/
theorem run_construct (d : Value) (t : Trail ω) :
    Outcome.constructing (some <$> u.spec.construct u.schema u.nest u.parameter u.source) t =
      let r := ((u.stages true).forM u.run).run { destination := d, call := { trail := t } }
      (.ofConstruct (r.1.map fun _ => some r.2.destination), r.2.call.trail) := by
  unfold Outcome.constructing Specification.construct stages
  rw [if_pos rfl, Run.forM_cons, Run.map_eq_bind, Run.run_bind, Run.run_zoom, Run.run_bind,
    Run.run_bind, run_create]
  dsimp only
  rcases (u.spec.create u.schema u.parameter u.source).run { trail := t } with ⟨e | start, call⟩
  · rfl
  · dsimp only
    rw [Run.run_zoom, Run.run_bind, run_filling]
    rcases (u.spec.body u.schema u.nest u.parameter u.source).run
      { destination := start, call } with ⟨e | ⟨⟩, a⟩ <;> rfl

end Setup

namespace Mapper

variable {ω : Type} {σ : Schema} {m : Mapper} {nest : Nat → Nesting ω}

/-- What an invocation from a source is made with. -/
def setup (σ : Schema) (m : Mapper) (nest : Nat → Nesting ω) (i : Invocation) (source : Value) :
    Setup ω where
  schema := σ
  spec := m.spec
  nest := nest
  parameter := m.taken i
  source := source

/-- The stages of an invocation. -/
def stages (σ : Schema) (m : Mapper) (nest : Nat → Nesting ω) (i : Invocation) (source : Value) :
    List Stage :=
  (m.setup σ nest i source).stages i.destination?.isNone

/-- The state in which an invocation starts. -/
def start (σ : Schema) (m : Mapper) (i : Invocation) (t : Trail ω) : Assembly ω where
  destination := i.destination?.getD (Value.zero σ (.record m.spec.destination))
  call := { trail := t }

/-- An admitted call goes through its stages, one after the other. -/
theorem invoke_stages (nest : Nat → Nesting ω) {i : Invocation} (h : m.rejection? σ i = none) {source : Value}
    (hs : i.source? = some source) (t : Trail ω) :
    let r := ((m.stages σ nest i source).forM (m.setup σ nest i source).run).run (m.start σ i t)
    (m.invoke σ nest i t).1.failure? = Run.failure? r.1 ∧
      (m.invoke σ nest i t).2 = r.2.call.trail := by
  have hconstructs : ∀ r : Except MapError Unit × Assembly ω,
      (Outcome.ofConstruct (r.1.map fun _ => some r.2.destination)).failure? =
        Run.failure? r.1 := by
    rintro ⟨e | ⟨⟩, a⟩ <;> rfl
  have hupdates : ∀ r : Except MapError Unit × Assembly ω,
      (Outcome.ofUpdate r.2.destination r.1).failure? = Run.failure? r.1 := by
    rintro ⟨e | ⟨⟩, a⟩ <;> rfl
  rw [invoke_of_admitted h hs]
  unfold routine stages start
  cases i.destination? with
  | none =>
    have hrun := (m.setup σ nest i source).run_construct
      (Value.zero σ (.record m.spec.destination)) t
    exact ⟨(congrArg (·.1.failure?) hrun).trans (hconstructs _), congrArg (·.2) hrun⟩
  | some d =>
    have hrun := (m.setup σ nest i source).run_update d t
    exact ⟨(congrArg (·.1.failure?) hrun).trans (hupdates _), congrArg (·.2) hrun⟩

/-- **An admitted call** takes its course through its stages, and what it runs of its
own is told. -/
theorem course_of_admitted {told : Trail ω → List (Option String) → Prop}
    (htells : Trail.TellsNotes told) (hquiet : ∀ j, (nest j).Quiet told) {i : Invocation}
    (h : m.rejection? σ i = none) {source : Value} (hs : i.source? = some source) (t : Trail ω) :
    ∃ ran, (m.setup σ nest i source).Course (m.stages σ nest i source) (m.start σ i t) ran
        (m.invoke σ nest i t).1.failure? ∧
      ∀ es, told t es → told (m.invoke σ nest i t).2 (es ++ ran.map Callback.label) := by
  obtain ⟨hfailure, htrail⟩ := invoke_stages nest h hs t
  rw [hfailure, htrail]
  exact Setup.course htells hquiet (m.stages σ nest i source) (m.start σ i t)

end Mapper

end RecordMap
