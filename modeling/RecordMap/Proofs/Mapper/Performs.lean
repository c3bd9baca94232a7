import RecordMap.Mapper
import RecordMap.Proofs.Run.Ensures

/-!
# Callbacks that are due

A part of a call has callbacks that are *due*: a hook itself, the conditions of a
member up to the first that does not hold, a provider and then a converter for each
element it converts.  What is due is read off the plan and the data the part starts
from, without running it (`Condition.asked`, `Conversion.callbacks`,
`MemberPlan.due`).

`Run.Performs told due x st` says that `x`, run from `st`, runs the callbacks of `due` in
this order: all of them if it succeeds, and otherwise those before the point where it
fails.  What has been run is what the state tells, and `told` says how; handlers of
nested mappers are taken to be quiet, so that the callbacks told are those of the call
itself.  There is one rule for each way a run is put together.
-/

namespace RecordMap

/-! ## §1. Callbacks and the logic -/

/-- A callback of a mapping, as it is run in a call. -/
inductive Callback where
  | factory (f : Factory)
  | hook (h : Hook)
  | condition (c : Condition)
  | provider (p : Provider)
  | converter (c : Converter)

/-- What the journal enters for a callback. -/
def Callback.label : Callback → Option String
  | factory f => f.label
  | hook h => h.label
  | condition c => c.label
  | provider p => p.label
  | converter c => c.label

namespace Run

variable {s t α β : Type} {told : s → List (Option String) → Prop} {due due' : List Callback}

/-- **A run performs callbacks**: it enters a prefix of those that are due, and all of
them if it succeeds. -/
def Performs (told : s → List (Option String) → Prop) (due : List Callback) (x : Run s α)
    (st : s) : Prop :=
  ∃ ran, ran <+: due ∧
    (∀ es, told st es → told (x.run st).2 (es ++ ran.map Callback.label)) ∧
    ∀ a, (x.run st).1 = .ok a → ran = due

namespace Performs

/-- A run that enters nothing. -/
theorem silent {x : Run s α} {st : s} (h : ∀ es, told st es → told (x.run st).2 es) :
    Performs told [] x st := by
  refine ⟨[], List.prefix_rfl, fun es hes => ?_, fun _ _ => rfl⟩
  rw [List.map_nil, List.append_nil]
  exact h es hes

theorem pure (a : α) (st : s) : Performs told [] (pure a) st := silent fun _ h => h

/-- Nothing that is due is run after a failure. -/
theorem throw (e : MapError) (st : s) : Performs told due (throw e : Run s α) st := by
  refine ⟨[], List.nil_prefix, fun es hes => ?_, nofun⟩
  rw [List.map_nil, List.append_nil]
  exact hes

theorem require (o : Option α) (e : MapError) (st : s) :
    Performs told [] (require o e) st := by
  cases o with
  | some a => exact pure a st
  | none => exact throw e st

theorem modify {f : s → s} {st : s} (h : ∀ es, told st es → told (f st) es) :
    Performs told [] (modify f) st :=
  silent h

theorem bind {x : Run s α} {f : α → Run s β} {st : s} (hx : Performs told due x st)
    (hf : ∀ a st', x.run st = (.ok a, st') → Performs told due' (f a) st') :
    Performs told (due ++ due') (x >>= f) st := by
  obtain ⟨ran, hprefix, htold, hall⟩ := hx
  rcases hrun : x.run st with ⟨e | a, st'⟩
  · rw [hrun] at htold
    rw [Performs, run_bind_error hrun]
    exact ⟨ran, hprefix.trans (List.prefix_append _ _), htold, nofun⟩
  · rw [hrun] at htold hall
    obtain ⟨ran', hprefix', htold', hall'⟩ := hf a st' hrun
    rw [Performs, run_bind_ok hrun, hall a rfl] at *
    refine ⟨due ++ ran', (List.prefix_append_right_inj due).mpr hprefix', fun es hes => ?_,
      fun b hb => ?_⟩
    · rw [List.map_append, ← List.append_assoc]
      exact htold' _ (htold es hes)
    · rw [hall' b hb]

/-- A run in front of which nothing is due. -/
theorem after {x : Run s α} {f : α → Run s β} {st : s} (hx : Performs told [] x st)
    (hf : ∀ a st', x.run st = (.ok a, st') → Performs told due (f a) st') :
    Performs told due (x >>= f) st :=
  hx.bind hf

/-- A run after which nothing is due. -/
theorem andThen {x : Run s α} {f : α → Run s β} {st : s} (hx : Performs told due x st)
    (hf : ∀ a st', x.run st = (.ok a, st') → Performs told [] (f a) st') :
    Performs told due (x >>= f) st := by
  have h := hx.bind hf
  rwa [List.append_nil] at h

theorem map {x : Run s α} {st : s} (hx : Performs told due x st) (f : α → β) :
    Performs told due (f <$> x) st := by
  rw [map_eq_bind]
  exact hx.andThen fun a st' _ => pure (f a) st'

theorem zoom {inner : t → List (Option String) → Prop} {x : Run t α} {get : s → t}
    {put : s → t → s} {st : s} (hx : Performs inner due x (get st))
    (hget : ∀ es, told st es → inner (get st) es)
    (hput : ∀ u es, inner u es → told (put st u) es) :
    Performs told due (zoom get put x) st := by
  obtain ⟨ran, hprefix, htold, hall⟩ := hx
  refine ⟨ran, hprefix, fun es hes => ?_, hall⟩
  rw [run_zoom]
  exact hput _ _ (htold es (hget es hes))

/-- The elements of a traversal, one after the other. -/
theorem mapM {dues : α → List Callback} {f : α → Run s β} {as : List α} {st : s}
    (h : ∀ a ∈ as, ∀ st, Performs told (dues a) (f a) st) :
    Performs told (as.flatMap dues) (as.mapM f) st := by
  induction as generalizing st with
  | nil =>
    rw [List.mapM_nil]
    exact pure [] st
  | cons a as ih =>
    rw [List.mapM_cons, List.flatMap_cons]
    refine (h a (by simp) st).bind fun b st' _ => ?_
    exact (ih fun a' ha' => h a' (List.mem_cons_of_mem _ ha')).andThen fun bs st' _ => pure _ st'

end Performs

end Run

section

variable {ω α : Type}

/-- Every label that is entered in the journal is told. -/
def Trail.TellsNotes (told : Trail ω → List (Option String) → Prop) : Prop :=
  ∀ t es label, told t es →
    told { t with journal := t.journal.enter label } (es ++ [label])

/-- A handler whose callbacks are not told. -/
def Nesting.Quiet (told : Trail ω → List (Option String) → Prop) (nest : Nesting ω) : Prop :=
  ∀ p v handedOn t es, told t es → told ((nest p v handedOn).run t).2 es

variable (told : Trail ω → List (Option String) → Prop)

/-- A run that performs callbacks in its call. -/
abbrev Call.Performs (due : List Callback) (x : Run (Call ω) α) (c : Call ω) : Prop :=
  Run.Performs (fun c => told c.trail) due x c

/-- A run that performs callbacks in its assembly. -/
abbrev Assembly.Performs (due : List Callback) (x : Run (Assembly ω) α) (a : Assembly ω) : Prop :=
  Run.Performs (fun a => told a.call.trail) due x a

end

variable {ω α : Type} {told : Trail ω → List (Option String) → Prop} {σ : Schema}
  {parameter handedOn : Option Value}

/-- A callback is entered, and then it is run. -/
theorem Call.performs_noted (htells : Trail.TellsNotes told) (c : Callback)
    {x : Run (Call ω) α} (hx : ∀ call, Call.Performs told [] x call) (call : Call ω) :
    Call.Performs told [c] (Call.note c.label >>= fun _ => x) call := by
  have hnote : Call.Performs told [c] (Call.note c.label) call :=
    ⟨[c], List.prefix_rfl, fun es hes => htells call.trail es c.label hes, fun _ _ => rfl⟩
  exact hnote.andThen fun _ st _ => hx st

/-- The parameter of a callback is fetched before it is entered. -/
theorem Call.performs_fetched {t : Ty} {due : List Callback} {f : Value → Run (Call ω) α}
    (hf : ∀ a call, Call.Performs told due (f a) call) (call : Call ω) :
    Call.Performs told due (Call.fetch σ parameter t >>= f) call :=
  (Run.Performs.require _ _ call).after fun a st _ => hf a st

theorem Call.performs_withContext (f : Context → α × Scratch) (call : Call ω) :
    Call.Performs told [] (Call.withContext parameter f) call :=
  .silent fun _ h => h

theorem Assembly.performs_onCall {due : List Callback} {x : Run (Call ω) α} {a : Assembly ω}
    (h : Call.Performs told due x a.call) : Assembly.Performs told due (Assembly.onCall x) a :=
  h.zoom (fun _ h => h) fun _ _ h => h

/-! ## §2. Conditions -/

namespace Condition

variable {source : Value}

/-- The condition is met: its parameter is there, and it holds. -/
def isMet (parameter : Option Value) (source : Value) (c : Condition) : Bool :=
  match c.body with
  | .source f => f source
  | .parameter t f => (parameter.bind (·.as? t)).any (f source)

/-- **The conditions asked**: up to the first that is not met, and including it. -/
def asked (parameter : Option Value) (source : Value) : List Condition → List Condition
  | [] => []
  | c :: rest => c :: if c.isMet parameter source then asked parameter source rest else []

/-- A condition that gives an answer says whether it is met, and enters its label. -/
theorem run_holds_ok {c : Condition} {call call' : Call ω} {b : Bool}
    (h : (c.holds σ parameter source).run call = (.ok b, call')) :
    b = c.isMet parameter source ∧
      call' = { call with trail.journal := call.trail.journal.enter c.label } := by
  unfold holds at h
  unfold isMet
  cases hbody : c.body with
  | source f =>
    rw [hbody] at h
    cases h
    exact ⟨rfl, rfl⟩
  | parameter t f =>
    rw [hbody] at h
    dsimp only at h ⊢
    unfold Call.fetch at h
    cases hp : parameter.bind (·.as? t) with
    | none =>
      rw [hp] at h
      cases h
    | some a =>
      rw [hp] at h
      cases h
      exact ⟨rfl, rfl⟩

theorem performs_holds (htells : Trail.TellsNotes told) (c : Condition) (call : Call ω) :
    Call.Performs told [.condition c] (c.holds σ parameter source) call := by
  unfold holds
  cases c.body with
  | source f => exact Call.performs_noted htells (.condition c) (fun st => .pure _ st) call
  | parameter t f =>
    refine Call.performs_fetched (fun a st => ?_) call
    exact Call.performs_noted htells (.condition c) (fun st => .pure _ st) st

/-- Conditions that come to an answer say whether all are met, and touch nothing but
the journal. -/
theorem run_allHold_ok {cs : List Condition} {call call' : Call ω} {b : Bool}
    (h : (allHold σ parameter source cs).run call = (.ok b, call')) :
    b = cs.all (isMet parameter source) ∧ call'.scratch = call.scratch := by
  induction cs generalizing call with
  | nil =>
    cases h
    exact ⟨rfl, rfl⟩
  | cons c rest ih =>
    obtain ⟨holds, call₁, hholds, h⟩ := Run.bind_ok h
    obtain ⟨rfl, rfl⟩ := run_holds_ok hholds
    rw [List.all_cons]
    cases hmet : c.isMet parameter source with
    | true =>
      rw [hmet, if_pos rfl] at h
      have hrest := ih h
      exact hrest
    | false =>
      rw [hmet] at h
      cases h
      exact ⟨rfl, rfl⟩

/-- **Conditions are asked in order**, and the first that is not met ends it. -/
theorem performs_allHold (htells : Trail.TellsNotes told) (cs : List Condition) (call : Call ω) :
    Call.Performs told ((asked parameter source cs).map .condition)
      (allHold σ parameter source cs) call := by
  induction cs generalizing call with
  | nil => exact .pure true call
  | cons c rest ih =>
    refine (c.performs_holds htells call).bind fun b call' h => ?_
    obtain ⟨rfl, -⟩ := run_holds_ok h
    cases c.isMet parameter source with
    | true => exact ih call'
    | false => exact .pure false call'

end Condition

/-! ## §3. Hooks, factories and providers -/

theorem Hook.performs_change (htells : Trail.TellsNotes told) (h : Hook)
    (source destination : Value) (call : Call ω) :
    Call.Performs told [.hook h] (h.change σ parameter source destination) call := by
  unfold change
  cases h.body with
  | plain f => exact Call.performs_noted htells (.hook h) (fun st => .pure _ st) call
  | parameter t f =>
    refine Call.performs_fetched (fun a st => ?_) call
    exact Call.performs_noted htells (.hook h) (fun st => .pure _ st) st
  | context f =>
    exact Call.performs_noted htells (.hook h) (fun st => Call.performs_withContext _ st) call

theorem Hook.performs_run (htells : Trail.TellsNotes told) (h : Hook) (source : Value)
    (a : Assembly ω) :
    Assembly.Performs told [.hook h] (h.run σ parameter source) a := by
  refine Run.Performs.after (.silent fun _ h => h) fun b a' hget => ?_
  cases hget
  refine Run.Performs.andThen (Assembly.performs_onCall (h.performs_change htells source _ _))
    fun changed a' _ => ?_
  exact .modify fun _ h => h

theorem Factory.performs_make (htells : Trail.TellsNotes told) (f : Factory) (source : Value)
    (call : Call ω) :
    Call.Performs told [.factory f] (f.make σ parameter source) call := by
  unfold make
  cases f.body with
  | source g => exact Call.performs_noted htells (.factory f) (fun st => .pure _ st) call
  | parameter t g =>
    refine Call.performs_fetched (fun a st => ?_) call
    exact Call.performs_noted htells (.factory f) (fun st => .pure _ st) st

/-- The value a provider gives, if its parameter is there. -/
def Provider.offer? (parameter : Option Value) (source destination : Value) (scratch : Scratch)
    (p : Provider) : Option Value :=
  match p.body with
  | .source f => some (f source)
  | .destination f => some (f source destination)
  | .parameter t f => (parameter.bind (·.as? t)).map (f source)
  | .context f => some (f source { parameter, scratch }).1

theorem Provider.run_provide_ok {p : Provider} {source destination raw : Value}
    {call call' : Call ω}
    (h : (p.provide σ parameter source destination).run call = (.ok raw, call')) :
    p.offer? parameter source destination call.scratch = some raw := by
  unfold provide at h
  unfold offer?
  cases hbody : p.body with
  | source f =>
    rw [hbody] at h
    cases h
    rfl
  | destination f =>
    rw [hbody] at h
    cases h
    rfl
  | parameter t f =>
    rw [hbody] at h
    dsimp only at h ⊢
    unfold Call.fetch at h
    cases hp : parameter.bind (·.as? t) with
    | none =>
      rw [hp] at h
      cases h
    | some a =>
      rw [hp] at h
      cases h
      rfl
  | context f =>
    rw [hbody] at h
    cases h
    rfl

theorem Provider.performs_provide (htells : Trail.TellsNotes told) (p : Provider)
    (source destination : Value) (call : Call ω) :
    Call.Performs told [.provider p] (p.provide σ parameter source destination) call := by
  unfold provide
  cases p.body with
  | source f => exact Call.performs_noted htells (.provider p) (fun st => .pure _ st) call
  | destination f => exact Call.performs_noted htells (.provider p) (fun st => .pure _ st) call
  | parameter t f =>
    refine Call.performs_fetched (fun a st => ?_) call
    exact Call.performs_noted htells (.provider p) (fun st => .pure _ st) st
  | context f =>
    exact Call.performs_noted htells (.provider p) (fun st => Call.performs_withContext _ st) call

/-! ## §4. Conversions -/

theorem Converter.performs_apply (htells : Trail.TellsNotes told) (k : Converter) (v : Value)
    (call : Call ω) :
    Call.Performs told [.converter k] (k.apply σ parameter v) call := by
  unfold apply input
  cases k.body with
  | plain f =>
    refine (Run.Performs.require _ _ call).after fun v st _ => ?_
    exact Call.performs_noted htells (.converter k) (fun st => .pure _ st) st
  | fallible f =>
    refine (Run.Performs.require _ _ call).after fun v st _ => ?_
    refine Call.performs_noted htells (.converter k) (fun st => ?_) st
    cases f v with
    | ok out => exact .pure out st
    | error cause => exact .throw _ st
  | context f =>
    refine (Run.Performs.require _ _ call).after fun v st _ => ?_
    exact Call.performs_noted htells (.converter k) (fun st => Call.performs_withContext _ st) st
  | parameter t f =>
    refine Call.performs_fetched (fun a st => ?_) call
    refine (Run.Performs.require _ _ st).after fun v st _ => ?_
    exact Call.performs_noted htells (.converter k) (fun st => .pure _ st) st

namespace Conversion

/-- **The elements converted**: what the tree hands to its leaf when run on a value,
in order.  There are none where an option is empty. -/
def converted : Conversion → Value → List Value
  | unwrap t next, v => (v.content? t).toList.flatMap next.converted
  | wrap _ next, v => next.converted v
  | wrapSource t next, v => (v.wrap? t).toList.flatMap next.converted
  | elements a _ next, v => ((v.items? a).getD []).flatMap next.converted
  | _, v => [v]

/-- The callbacks of a conversion: its converter, if it has one, for each element. -/
def callbacks (c : Conversion) (v : Value) : List Callback :=
  (c.converted v).flatMap fun _ => c.converters.map .converter

theorem callbacks_of_leaf {c : Conversion} {v : Value} (hleaf : c.converted v = [v]) :
    c.callbacks v = c.converters.map .converter := by
  unfold callbacks
  rw [hleaf, List.flatMap_singleton]

/-- A part of the data that is converted further. -/
theorem callbacks_of_parts {c next : Conversion} {v : Value} {parts : List Value}
    (hparts : c.converted v = parts.flatMap next.converted)
    (hsame : c.converters = next.converters) :
    c.callbacks v = parts.flatMap next.callbacks := by
  unfold callbacks
  rw [hparts, List.flatMap_assoc, hsame]

/-- **A conversion runs its converter once for each element.** -/
theorem performs_run {nest : Nesting ω} (htells : Trail.TellsNotes told)
    (hquiet : nest.Quiet told) (c : Conversion) (v : Value) (call : Call ω) :
    Call.Performs told (c.callbacks v) (c.run σ parameter handedOn nest v) call := by
  induction c generalizing v call with
  | passThrough t =>
    rw [callbacks_of_leaf rfl, Conversion.run]
    exact (Run.Performs.require _ _ call).map some
  | converter k =>
    rw [callbacks_of_leaf rfl, Conversion.run]
    exact (k.performs_apply htells v call).map some
  | operator k =>
    rw [callbacks_of_leaf rfl, Conversion.run]
    exact (k.performs_apply htells v call).map some
  | primitive a b =>
    rw [callbacks_of_leaf rfl, Conversion.run]
    refine Run.Performs.map ?_ some
    unfold castOrFail
    split
    · exact .pure _ call
    · exact .throw _ call
    · exact .throw _ call
  | fromEnum e b =>
    rw [callbacks_of_leaf rfl, Conversion.run]
    refine Run.Performs.map ?_ some
    unfold variantOut
    split
    · exact (Run.Performs.require _ _ call).after fun name st _ => .pure _ st
    · refine (Run.Performs.require _ _ call).after fun n st _ => ?_
      split
      · exact .pure _ st
      · exact .throw _ st
  | toEnum a e =>
    rw [callbacks_of_leaf rfl, Conversion.run]
    refine Run.Performs.map ?_ some
    unfold variantIn
    split
    · split
      · exact .require _ _ call
      · exact .throw _ call
    · refine (Run.Performs.require _ _ call).after fun scalar st _ => ?_
      split
      · exact .throw _ st
      · exact .require _ _ st
  | enumToEnum a b =>
    rw [callbacks_of_leaf rfl, Conversion.run]
    refine Run.Performs.map ?_ some
    exact (Run.Performs.require _ _ call).after fun name st _ => .require _ _ st
  | unwrap t next ih =>
    have hparts : (unwrap t next).callbacks v = (v.content? t).toList.flatMap next.callbacks :=
      callbacks_of_parts rfl rfl
    rw [hparts, Conversion.run]
    split
    · rename_i inner hinner
      rw [hinner, Option.toList_some, List.flatMap_singleton]
      exact ih inner call
    · rename_i hnone
      rw [hnone]
      exact .pure none call
  | wrap t next ih =>
    have hsame : callbacks (wrap t next) v = next.callbacks v := rfl
    rw [hsame, Conversion.run]
    refine (ih v call).andThen fun o st _ => ?_
    cases o with
    | some out => exact (Run.Performs.require _ _ st).map some
    | none => exact .pure none st
  | wrapSource t next ih =>
    have hparts : (wrapSource t next).callbacks v = (v.wrap? t).toList.flatMap next.callbacks :=
      callbacks_of_parts rfl rfl
    rw [hparts, Conversion.run]
    cases hwrap : v.wrap? t with
    | some wrapped =>
      rw [Option.toList_some, List.flatMap_singleton, Run.require_some, pure_bind]
      exact ih wrapped call
    | none => exact .throw _ call
  | elements a b next ih =>
    have hparts : (elements a b next).callbacks v =
        ((v.items? a).getD []).flatMap next.callbacks := callbacks_of_parts rfl rfl
    rw [hparts, Conversion.run]
    cases hitems : v.items? a with
    | some items =>
      rw [Option.getD_some, Run.require_some, pure_bind]
      refine Run.Performs.andThen (.mapM fun item _ st => ?_) fun out st _ => ?_
      · exact (ih item st).andThen fun o st _ => .pure _ st
      · exact (Run.Performs.require _ _ st).map some
    | none => exact .throw _ call
  | nested p =>
    rw [callbacks_of_leaf rfl, Conversion.run]
    have hnested : Call.Performs told [] (Call.onTrail (nest p v handedOn)) call :=
      .silent fun es hes => hquiet p v handedOn call.trail es hes
    exact hnested.map some

end Conversion

/-! ## §5. Members -/

/-- The provider of a source, if it is one. -/
def Accessor.callbacks : Accessor → List Callback
  | path _ => []
  | provider p => [.provider p]

/-- The value a source offers to be converted, if there is one. -/
def Accessor.offer? (σ : Schema) (parameter : Option Value) (recordName : String)
    (source destination : Value) (scratch : Scratch) : Accessor → Option Value
  | path p => p.read? σ recordName source
  | provider p => p.offer? parameter source destination scratch

/-- The callbacks that produce a value: a provider, and a converter for each element of
what is offered. -/
def Production.due (σ : Schema) (parameter : Option Value) (recordName : String)
    (source destination : Value) (scratch : Scratch) : Production → List Callback
  | constant _ => []
  | read a c _ => a.callbacks ++
      (a.offer? σ parameter recordName source destination scratch).toList.flatMap c.callbacks

namespace MemberPlan

/-- **The callbacks due for a member**: its conditions up to the first that is not met,
and those that produce its value if all are. -/
def due (σ : Schema) (parameter : Option Value) (recordName : String) (source : Value)
    (m : MemberPlan) (destination : Value) (scratch : Scratch) : List Callback :=
  (Condition.asked parameter source m.conditions).map .condition ++
    if m.conditions.all (Condition.isMet parameter source) then
      m.production.due σ parameter recordName source destination scratch
    else []

variable {nest : Nesting ω} {recordName : String} {source : Value}

theorem performs_value (htells : Trail.TellsNotes told) (hquiet : nest.Quiet told)
    (m : MemberPlan) (destination : Value) (call : Call ω) :
    Call.Performs told
      (m.production.due σ parameter recordName source destination call.scratch)
      (m.value σ parameter handedOn nest recordName source destination) call := by
  unfold value Production.due
  cases m.production with
  | constant v => exact .pure v call
  | read a c sentinel =>
    refine Run.Performs.andThen ?_ fun o st _ => .pure _ st
    cases a with
    | path p =>
      dsimp only [Accessor.callbacks, Accessor.offer?, Accessor.read]
      cases p.read? σ recordName source with
      | none => exact .pure none call
      | some raw =>
        rw [List.nil_append, Option.toList_some, List.flatMap_singleton]
        exact c.performs_run htells hquiet raw call
    | provider p =>
      refine (p.performs_provide htells source destination call).bind fun raw st h => ?_
      dsimp only [Accessor.offer?]
      rw [Provider.run_provide_ok h, Option.toList_some, List.flatMap_singleton]
      exact c.performs_run htells hquiet raw st

/-- **Assigning a member** performs what is due for it, as it finds the destination and
the store of the call. -/
theorem performs_assign (htells : Trail.TellsNotes told) (hquiet : nest.Quiet told)
    (m : MemberPlan) (a : Assembly ω) :
    Assembly.Performs told
      (m.due σ parameter recordName source a.destination a.call.scratch)
      (m.assign σ parameter handedOn nest recordName source) a := by
  unfold assign due
  refine (Assembly.performs_onCall (Condition.performs_allHold htells m.conditions a.call)).bind
    fun b a' h => ?_
  -- The conditions leave the destination and the store as they are.
  have hcall : ∃ call, (Condition.allHold σ parameter source m.conditions).run a.call =
      (.ok b, call) ∧ a' = { a with call } := by
    rw [Assembly.onCall, Run.run_zoom] at h
    rcases hrun : (Condition.allHold σ parameter source m.conditions).run a.call with ⟨r, call⟩
    rw [hrun] at h
    cases h
    exact ⟨call, rfl, rfl⟩
  obtain ⟨call, hrun, rfl⟩ := hcall
  obtain ⟨rfl, hscratch⟩ := Condition.run_allHold_ok hrun
  cases m.conditions.all (Condition.isMet parameter source) with
  | false => exact .pure _ _
  | true =>
    rw [if_pos rfl, if_pos rfl, ← hscratch]
    refine Run.Performs.after (.silent fun _ h => h) fun b a' hget => ?_
    cases hget
    refine Run.Performs.andThen
      (Assembly.performs_onCall (m.performs_value htells hquiet a.destination call))
      fun v a' _ => ?_
    refine (Run.Performs.require _ _ a').after fun assigned a' _ => ?_
    exact .modify fun _ h => h

end MemberPlan

end RecordMap
