import RecordMap.Context
import RecordMap.Error
import RecordMap.Journal

/-!
# Callbacks

A mapping is completed by callbacks of its author: converters between types,
providers of member values, conditions, hooks and factories.  Each is a pure
function of the data it declares to use, so what it can see and change is read
off its body: a body over the context may change the scratch store, one with a
parameter names the type it needs, a fallible one may fail with a text.

A callback may carry a label.  Running it enters the label, or the lack of one,
in the journal of the call.

The module also has the monad in which callbacks run.  `Run s` is state and
failure; a failure keeps the state reached.
-/

namespace RecordMap

/-! ## §1. Running -/

/-- Computations over a state `s` that may fail; the state survives a failure. -/
abbrev Run (s : Type) (α : Type) := ExceptT MapError (StateM s) α

namespace Run

/-- Run a computation on a part of a larger state. -/
def zoom {s t α : Type} (get : s → t) (put : s → t → s) (x : Run t α) : Run s α :=
  ExceptT.mk fun st => let (r, part) := x.run (get st); (r, put st part)

/-- The value of an option, or a failure. -/
def require {s α : Type} (o : Option α) (e : MapError) : Run s α :=
  match o with
  | some a => pure a
  | none => throw e

@[simp] theorem require_some {s α : Type} (a : α) (e : MapError) :
    (require (some a) e : Run s α) = pure a := rfl

@[simp] theorem require_none {s α : Type} (e : MapError) :
    (require none e : Run s α) = throw e := rfl

/-- The part ends up where the computation left it, also after a failure. -/
theorem run_zoom {s t α : Type} (get : s → t) (put : s → t → s) (x : Run t α) (st : s) :
    (zoom get put x).run st = ((x.run (get st)).1, put st (x.run (get st)).2) := rfl

end Run

/-- What a call shares with the calls nested in it: the journal, and whatever
lies outside all calls. -/
structure Trail (ω : Type) where
  journal : Journal := {}
  outside : ω

/-- The state of one call: its scratch store and the trail. -/
structure Call (ω : Type) where
  scratch : Scratch := {}
  trail : Trail ω

/-- The state of a call that assembles a destination. -/
structure Assembly (ω : Type) where
  destination : Value
  call : Call ω

namespace Call

variable {ω : Type}

/-- Enter a label in the journal. -/
def note (label : Option String) : Run (Call ω) Unit :=
  modify fun c => { c with trail.journal := c.trail.journal.enter label }

/-- Run something on the trail of a call. -/
def onTrail {α : Type} (x : Run (Trail ω) α) : Run (Call ω) α :=
  Run.zoom Call.trail (fun c t => { c with trail := t }) x

/-- Run a callback over the context of the call; it may replace the scratch. -/
def withContext {α : Type} (parameter : Option Value) (f : Context → α × Scratch) :
    Run (Call ω) α := do
  let c ← get
  let (a, scratch) := f { parameter, scratch := c.scratch }
  set { c with scratch }
  return a

/-- **The auxiliary parameter** a callback declares; it is fetched before the
callback runs. -/
def fetch (σ : Schema) (parameter : Option Value) (t : Ty) : Run (Call ω) Value :=
  Run.require (parameter.bind (·.as? t)) (.parameterMissing (σ.name t))

end Call

/-- Run something on the call of an assembly; the destination is not touched. -/
def Assembly.onCall {ω α : Type} (x : Run (Call ω) α) : Run (Assembly ω) α :=
  Run.zoom Assembly.call (fun a c => { a with call := c }) x

/-! ## §2. Converters -/

/-- What a converter computes from. -/
inductive ConverterBody where
  | plain (f : Value → Value)
  /-- May fail with a text. -/
  | fallible (f : Value → Except String Value)
  | context (f : Value → Context → Value × Scratch)
  | parameter (type : Ty) (f : Value → Value → Value)

/-- A conversion between two types, supplied by the author of a mapping. -/
structure Converter where
  source : Ty
  target : Ty
  label : Option String := none
  body : ConverterBody

namespace Converter

/-- The auxiliary parameter type a converter declares. -/
def parameter? (c : Converter) : Option Ty :=
  match c.body with
  | .parameter t _ => some t
  | _ => none

/-- The value given to a converter, which has to be of its source type. -/
def input {ω : Type} (σ : Schema) (c : Converter) (v : Value) : Run (Call ω) Value :=
  Run.require (v.as? c.source) (.typeMismatch (σ.name c.source))

/-- **Applying** a converter to a value.  The parameter is checked before the
value, and the value before the label is entered. -/
def apply {ω : Type} (σ : Schema) (parameter : Option Value) (c : Converter) (v : Value) :
    Run (Call ω) Value :=
  match c.body with
  | .plain f => do
      let v ← c.input σ v
      Call.note c.label
      return f v
  | .fallible f => do
      let v ← c.input σ v
      Call.note c.label
      match f v with
      | .ok out => return out
      | .error cause => throw (.callback cause)
  | .context f => do
      let v ← c.input σ v
      Call.note c.label
      Call.withContext parameter (f v)
  | .parameter t f => do
      let p ← Call.fetch σ parameter t
      let v ← c.input σ v
      Call.note c.label
      return f v p

end Converter

/-! ## §3. Providers -/

/-- What a provider computes a member value from: the source record, with the
destination as it stands, the parameter or the context. -/
inductive ProviderBody where
  | source (f : Value → Value)
  | destination (f : Value → Value → Value)
  | parameter (type : Ty) (f : Value → Value → Value)
  | context (f : Value → Context → Value × Scratch)

/-- A computed source for a member, of a declared type. -/
structure Provider where
  output : Ty
  label : Option String := none
  body : ProviderBody

namespace Provider

/-- The auxiliary parameter type a provider declares. -/
def parameter? (p : Provider) : Option Ty :=
  match p.body with
  | .parameter t _ => some t
  | _ => none

/-- The value a provider computes. -/
def provide {ω : Type} (σ : Schema) (parameter : Option Value) (source destination : Value)
    (p : Provider) : Run (Call ω) Value :=
  match p.body with
  | .source f => do
      Call.note p.label
      return f source
  | .destination f => do
      Call.note p.label
      return f source destination
  | .parameter t f => do
      let a ← Call.fetch σ parameter t
      Call.note p.label
      return f source a
  | .context f => do
      Call.note p.label
      Call.withContext parameter (f source)

end Provider

/-! ## §4. Conditions -/

/-- What a condition looks at: the source record, perhaps with the parameter. -/
inductive ConditionBody where
  | source (f : Value → Bool)
  | parameter (type : Ty) (f : Value → Value → Bool)

/-- A predicate on which assignments depend. -/
structure Condition where
  label : Option String := none
  body : ConditionBody

namespace Condition

/-- The auxiliary parameter type a condition declares. -/
def parameter? (c : Condition) : Option Ty :=
  match c.body with
  | .parameter t _ => some t
  | _ => none

/-- Whether a condition holds. -/
def holds {ω : Type} (σ : Schema) (parameter : Option Value) (source : Value) (c : Condition) :
    Run (Call ω) Bool :=
  match c.body with
  | .source f => do
      Call.note c.label
      return f source
  | .parameter t f => do
      let a ← Call.fetch σ parameter t
      Call.note c.label
      return f source a

/-- Whether all conditions hold; the first that does not is the last looked at. -/
def allHold {ω : Type} (σ : Schema) (parameter : Option Value) (source : Value) :
    List Condition → Run (Call ω) Bool
  | [] => return true
  | c :: rest => do
      if ← c.holds σ parameter source then allHold σ parameter source rest
      else return false

end Condition

/-! ## §5. Hooks -/

/-- What a hook changes the destination by: the source record, perhaps with the
parameter or the context. -/
inductive HookBody where
  | plain (f : Value → Value → Value)
  | parameter (type : Ty) (f : Value → Value → Value → Value)
  | context (f : Value → Value → Context → Value × Scratch)

/-- A change to the destination before or after its members are assigned. -/
structure Hook where
  label : Option String := none
  body : HookBody

namespace Hook

/-- The auxiliary parameter type a hook declares. -/
def parameter? (h : Hook) : Option Ty :=
  match h.body with
  | .parameter t _ => some t
  | _ => none

/-- The destination a hook leaves. -/
def change {ω : Type} (σ : Schema) (parameter : Option Value) (source destination : Value)
    (h : Hook) : Run (Call ω) Value :=
  match h.body with
  | .plain f => do
      Call.note h.label
      return f source destination
  | .parameter t f => do
      let a ← Call.fetch σ parameter t
      Call.note h.label
      return f source destination a
  | .context f => do
      Call.note h.label
      Call.withContext parameter (f source destination)

/-- Run a hook on the destination being assembled. -/
def run {ω : Type} (σ : Schema) (parameter : Option Value) (source : Value) (h : Hook) :
    Run (Assembly ω) Unit := do
  let changed ← Assembly.onCall (h.change σ parameter source (← get).destination)
  modify fun a => { a with destination := changed }

end Hook

/-! ## §6. Factories -/

/-- What a factory makes a destination from: the source record, perhaps with the
parameter. -/
inductive FactoryBody where
  | source (f : Value → Value)
  | parameter (type : Ty) (f : Value → Value → Value)

/-- A maker of destinations. -/
structure Factory where
  label : Option String := none
  body : FactoryBody

namespace Factory

/-- The auxiliary parameter type a factory declares. -/
def parameter? (f : Factory) : Option Ty :=
  match f.body with
  | .parameter t _ => some t
  | _ => none

/-- The destination a factory makes. -/
def make {ω : Type} (σ : Schema) (parameter : Option Value) (source : Value) (f : Factory) :
    Run (Call ω) Value :=
  match f.body with
  | .source g => do
      Call.note f.label
      return g source
  | .parameter t g => do
      let a ← Call.fetch σ parameter t
      Call.note f.label
      return g source a

end Factory

end RecordMap
