import RecordMap.Callback
import RecordMap.Script.Basic

/-!
# Scripts as callbacks

What each kind of callback sees of a call when it is given as a script.  A
converter sees its input; providers and conditions see the source; hooks and
factories see the source and the destination.  The parameter and the scratch
store are seen by those callbacks that declare them.
-/

namespace RecordMap.Script

/-- What a callback declares to use beside the data of its kind. -/
inductive Uses where
  | nothing
  | context
  | parameter (type : Ty)
  deriving DecidableEq, Repr

/-! ## §1. Producers -/

namespace Producer

/-- A converter to a type. -/
def converter (σ : Schema) (target : Ty) (p : Producer) : Uses → ConverterBody
  | .nothing => .plain fun v => p.produce σ target { input := some v }
  | .context => .context fun v c => p.produceWith σ target { input := some v } c.scratch
  | .parameter t =>
      .parameter t fun v a => p.produce σ target { input := some v, parameter := some a }

/-- A converter that may refuse its input. -/
def fallibleConverter (σ : Schema) (target : Ty) (p : Producer) (refusal : Option Refusal) :
    ConverterBody :=
  .fallible fun v =>
    match refusal with
    | some r =>
        if r.applies (v.plain σ) then .error r.cause
        else .ok (p.produce σ target { input := some v })
    | none => .ok (p.produce σ target { input := some v })

/-- A provider of a value of a type. -/
def provider (σ : Schema) (output : Ty) (p : Producer) : Uses → ProviderBody
  | .nothing => .source fun s => p.produce σ output { source := some s }
  | .context => .context fun s c => p.produceWith σ output { source := some s } c.scratch
  | .parameter t =>
      .parameter t fun s a => p.produce σ output { source := some s, parameter := some a }

/-- A provider that looks at the destination, too. -/
def destinationProvider (σ : Schema) (output : Ty) (p : Producer) : ProviderBody :=
  .destination fun s d => p.produce σ output { source := some s, destination := some d }

end Producer

/-! ## §2. Tests -/

/-- A condition, with the parameter type it declares. -/
def Test.condition (σ : Schema) (t : Test) : Option Ty → ConditionBody
  | none => .source fun s => t.holds σ { source := some s }
  | some type =>
      .parameter type fun s a => t.holds σ { source := some s, parameter := some a }

/-! ## §3. Actions -/

/-- The destination and the scratch store that actions leave. -/
def change (σ : Schema) (actions : List Action) (view : View) (destination : Value) : Value :=
  ((runAll σ actions { view with destination := some destination }).destination).getD destination

/-- A hook. -/
def hook (σ : Schema) (actions : List Action) : Uses → HookBody
  | .nothing => .plain fun s d => change σ actions { source := some s } d
  | .context => .context fun s d c =>
      let view := runAll σ actions
        { source := some s, destination := some d, scratch := some c.scratch }
      (view.destination.getD d, view.scratch.getD c.scratch)
  | .parameter t =>
      .parameter t fun s d a => change σ actions { source := some s, parameter := some a } d

/-- A factory of destinations, with the parameter type it declares.  The actions
start from the zero of the destination. -/
def factory (σ : Schema) (actions : List Action) (destination : Ty) : Option Ty → FactoryBody
  | none => .source fun s => change σ actions { source := some s } (Value.zero σ destination)
  | some t => .parameter t fun s a =>
      change σ actions { source := some s, parameter := some a } (Value.zero σ destination)

end RecordMap.Script
