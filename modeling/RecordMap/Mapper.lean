import RecordMap.Conversion.Run
import RecordMap.Plan.Basic

/-!
# Running a mapper

A mapper runs the specification of one pairing.  One call goes through

1. a fresh scratch store;
2. for the constructing shapes, the creation of a destination;
3. the before-hooks, in order;
4. the guards; unless all hold no member is assigned;
5. the members in the order of the plan, each behind its own conditions;
6. the after-hooks, in order.

The first failure ends the call; what was assigned before it stays assigned.

Mappers of nested pairings are reached through a handler for each member, which
the owner supplies.
-/

namespace RecordMap

variable {ω : Type}

/-! ## §1. Members -/

/-- The converted value of a read member, if it is present. -/
def Accessor.read (σ : Schema) (parameter handedOn : Option Value) (nest : Nesting ω)
    (recordName : String) (source destination : Value) (a : Accessor) (c : Conversion) :
    Run (Call ω) (Option Value) :=
  match a with
  | .path p =>
      match p.read? σ recordName source with
      | some raw => c.run σ parameter handedOn nest raw
      | none => return none
  | .provider p => do
      let raw ← p.provide σ parameter source destination
      c.run σ parameter handedOn nest raw

/-- **The value a member is assigned.**  An absent value is replaced by the
sentinel, or else by the zero of the member's type. -/
def MemberPlan.value (σ : Schema) (parameter handedOn : Option Value) (nest : Nesting ω)
    (recordName : String) (source destination : Value) (m : MemberPlan) :
    Run (Call ω) Value :=
  match m.production with
  | .constant v => return v
  | .read accessor conversion sentinel => do
      let converted ←
        accessor.read σ parameter handedOn nest recordName source destination conversion
      return converted.getD (sentinel.getD (Value.zero σ m.type))

/-- Assign a member of the destination, if its conditions hold. -/
def MemberPlan.assign (σ : Schema) (parameter handedOn : Option Value) (nest : Nesting ω)
    (recordName : String) (source : Value) (m : MemberPlan) : Run (Assembly ω) Unit := do
  if ← Assembly.onCall (Condition.allHold σ parameter source m.conditions) then
    -- Providers see the destination as the members before this one left it.
    let destination := (← get).destination
    let v ← Assembly.onCall
      (m.value σ parameter handedOn nest recordName source destination)
    let assigned ← Run.require (destination.assign? m.type m.declaration v)
      (.typeMismatch (σ.name m.type))
    modify fun a => { a with destination := assigned }

/-! ## §2. Whole calls -/

namespace Specification

/-- What nested mappers get of the parameter: all of it if the mapping declares
one, nothing otherwise. -/
def handedOn (s : Specification) (parameter : Option Value) : Option Value :=
  if s.parameter.isSome then parameter else none

/-- Assign the members, in order. -/
def assignMembers (σ : Schema) (s : Specification) (nest : Nat → Nesting ω)
    (parameter : Option Value) (source : Value) : Run (Assembly ω) Unit :=
  s.members.forM fun m =>
    m.assign σ parameter (s.handedOn parameter) (nest m.declaration) s.source source

/-- **The body of a call**: hooks, guards and members. -/
def body (σ : Schema) (s : Specification) (nest : Nat → Nesting ω)
    (parameter : Option Value) (source : Value) : Run (Assembly ω) Unit := do
  s.before.forM fun h => h.run σ parameter source
  if ← Assembly.onCall (Condition.allHold σ parameter source s.guards) then
    s.assignMembers σ nest parameter source
  s.after.forM fun h => h.run σ parameter source

/-- The destination a constructing call starts from. -/
def create (σ : Schema) (s : Specification) (parameter : Option Value) (source : Value) :
    Run (Call ω) Value :=
  match s.creation with
  | .custom f => f.make σ parameter source
  | .fallback v =>
      Run.require (v.as? (.record s.destination))
        (.typeMismatch (σ.name (.record s.destination)))
  | .zero => return Value.zero σ (.record s.destination)

/-- The state of an updating call, seen from outside. -/
structure Updating (ω : Type) where
  destination : Value
  trail : Trail ω

/-- Update a destination; a failure leaves it as far as it was assigned. -/
def update (σ : Schema) (s : Specification) (nest : Nat → Nesting ω)
    (parameter : Option Value) (source : Value) : Run (Updating ω) Unit :=
  Run.zoom
    (fun u => ({ destination := u.destination, call := { trail := u.trail } } : Assembly ω))
    (fun _ a => { destination := a.destination, trail := a.call.trail })
    (s.body σ nest parameter source)

/-- Construct a destination. -/
def construct (σ : Schema) (s : Specification) (nest : Nat → Nesting ω)
    (parameter : Option Value) (source : Value) : Run (Trail ω) Value :=
  Run.zoom
    (fun t => ({ trail := t } : Call ω))
    (fun _ c => c.trail)
    do
      let start ← s.create σ parameter source
      Run.zoom
        (fun c => ({ destination := start, call := c } : Assembly ω))
        (fun _ a => a.call)
        do
          s.body σ nest parameter source
          return (← get).destination

end Specification

/-! ## §3. Mappers and their shapes -/

/-- The mapper compiled for a specification. -/
structure Mapper where
  spec : Specification

namespace Mapper

/-- The shapes the mapper is compiled for. -/
def shapes (m : Mapper) : Shapes := m.spec.shapes

/-- The auxiliary parameter type the mapper needs. -/
def parameter? (m : Mapper) : Option Ty := m.spec.parameter

/-- The error of a call in a shape the mapper lacks. -/
def missing (σ : Schema) (m : Mapper) (shape : Shape) : MapError :=
  .shapeNotCompiled shape.name (m.spec.pairing.plain.name σ)

/-- The mapper has the shape. -/
def demand {s : Type} (σ : Schema) (m : Mapper) (shape : Shape) : Run s Unit :=
  if m.shapes.contains shape then return () else throw (m.missing σ shape)

/-- A parameter has the declared type, if one is declared. -/
def checkParameter {s : Type} (σ : Schema) (m : Mapper) (parameter : Value) : Run s Unit :=
  match m.parameter? with
  | some t => if parameter.type = t then return () else throw (.parameterType (σ.name t))
  | none => return ()

/-- Copy members into an existing destination. -/
def update (σ : Schema) (m : Mapper) (nest : Nat → Nesting ω) (source : Value) :
    Run (Specification.Updating ω) Unit := do
  m.demand σ .update
  m.spec.update σ nest none source

/-- Construct a destination. -/
def construct (σ : Schema) (m : Mapper) (nest : Nat → Nesting ω) (source : Value) :
    Run (Trail ω) Value := do
  m.demand σ .construct
  m.spec.construct σ nest none source

/-- Update with an auxiliary parameter. -/
def updateWith (σ : Schema) (m : Mapper) (nest : Nat → Nesting ω) (source parameter : Value) :
    Run (Specification.Updating ω) Unit := do
  m.demand σ .updateWith
  m.checkParameter σ parameter
  m.spec.update σ nest (some parameter) source

/-- Construct with an auxiliary parameter. -/
def constructWith (σ : Schema) (m : Mapper) (nest : Nat → Nesting ω)
    (source parameter : Value) : Run (Trail ω) Value := do
  m.demand σ .constructWith
  m.checkParameter σ parameter
  m.spec.construct σ nest (some parameter) source

/-- Update from a source that may be absent; an absent one changes nothing. -/
def updateOption (σ : Schema) (m : Mapper) (nest : Nat → Nesting ω) (source : Option Value) :
    Run (Specification.Updating ω) Unit :=
  match source with
  | some source => m.update σ nest source
  | none => return ()

/-- Construct from a source that may be absent; an absent one constructs nothing,
or a record of zeros if the destination is a value aggregate. -/
def constructOption (σ : Schema) (m : Mapper) (nest : Nat → Nesting ω)
    (source : Option Value) : Run (Trail ω) (Option Value) :=
  match source with
  | some source => some <$> m.construct σ nest source
  | none =>
      if (σ.record m.spec.destination).valueAggregate then
        return some (Value.zero σ (.record m.spec.destination))
      else return none

/-- **Construction from any value**, the entry of nested mappings.  A parameter is
used if the mapper has the shape for it, and dropped otherwise; without one, the
shape that takes no parameter is preferred. -/
def constructAny (σ : Schema) (m : Mapper) (nest : Nat → Nesting ω) (source : Value)
    (parameter : Option Value) : Run (Trail ω) Value := do
  let source ← Run.require (source.as? (.record m.spec.source))
    (.typeMismatch (σ.name (.record m.spec.source)))
  match parameter, m.shapes.contains .constructWith, m.shapes.contains .construct with
  | some p, true, _ => do
      m.checkParameter σ p
      m.spec.construct σ nest (some p) source
  | _, _, true => m.spec.construct σ nest none source
  -- Without a parameter the other shape does as well, if it is the only one.
  | none, true, false => m.spec.construct σ nest none source
  | _, _, false => throw (m.missing σ .construct)

/-- The dump of a mapper. -/
def dump (σ : Schema) (m : Mapper) : String :=
  "CompiledMapper \x7b source: " ++ σ.name (.record m.spec.source) ++
    ", destination: " ++ σ.name (.record m.spec.destination) ++
    ", profile: " ++ Text.quoteOption m.spec.profile ++
    ", parameter: " ++ Text.quoteOption (m.parameter?.map σ.name) ++ " \x7d"

end Mapper

end RecordMap
