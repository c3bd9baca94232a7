import RecordMap.Mapper
import RecordMap.Plan.Draft

/-!
# Synthesis

A specification is compiled into a bundle of routines, one for each calling shape
it asks for.  The plan of a member becomes an assignment if there is something to
assign: a constant, or a source with its conversion.  A plan with neither would be
skipped.  All routines of a bundle share the assignments, the hooks and the guards.

The shapes of a bundle are those it has a routine for.
-/

namespace RecordMap

variable {ω : Type}

/-! ## §1. Assignments -/

/-- Where the value of an assignment comes from. -/
inductive ValueSource where
  | constant (v : Value)
  | read (accessor : Accessor) (conversion : Conversion)

/-- The compiled assignment of one member. -/
structure Assignment where
  member : String
  type : Ty
  declaration : Nat
  conditions : List Condition
  value : ValueSource
  /-- Substituted for an absent value. -/
  fallback : Option Value

/-- The value source of a plan: a constant before anything else. -/
def Draft.valueSource? (x : Draft) : Option ValueSource :=
  match x.constant, x.accessor, x.conversion with
  | some v, _, _ => some (.constant v)
  | none, some accessor, some conversion => some (.read accessor conversion)
  | _, _, _ => none

/-- The assignment a plan is compiled to, if it has a value source. -/
def Draft.assignment? (x : Draft) : Option Assignment :=
  x.valueSource?.map fun value => {
    member := x.member, type := x.type, declaration := x.declaration
    conditions := x.conditions, value, fallback := x.sentinel }

namespace Assignment

/-- The value assigned. -/
def produce (σ : Schema) (parameter handedOn : Option Value) (nest : Nesting ω)
    (recordName : String) (source destination : Value) (a : Assignment) : Run (Call ω) Value :=
  match a.value with
  | .constant v => return v
  | .read accessor conversion => do
      let converted ←
        accessor.read σ parameter handedOn nest recordName source destination conversion
      return converted.getD (a.fallback.getD (Value.zero σ a.type))

/-- Assign the member, if its conditions hold. -/
def apply (σ : Schema) (parameter handedOn : Option Value) (nest : Nesting ω)
    (recordName : String) (source : Value) (a : Assignment) : Run (Assembly ω) Unit := do
  if ← Assembly.onCall (Condition.allHold σ parameter source a.conditions) then
    let destination := (← get).destination
    let v ← Assembly.onCall
      (a.produce σ parameter handedOn nest recordName source destination)
    let assigned ← Run.require (destination.assign? a.type a.declaration v)
      (.typeMismatch (σ.name a.type))
    modify fun st => { st with destination := assigned }

end Assignment

/-! ## §2. Routines -/

/-- What the routines of a bundle share: the assignments compiled, and the rest of
the specification. -/
structure Routine where
  spec : Specification
  assignments : List Assignment

namespace Routine

/-- Hooks, guards and assignments. -/
def body (σ : Schema) (r : Routine) (nest : Nat → Nesting ω) (parameter : Option Value)
    (source : Value) : Run (Assembly ω) Unit := do
  r.spec.before.forM fun h => h.run σ parameter source
  if ← Assembly.onCall (Condition.allHold σ parameter source r.spec.guards) then
    r.assignments.forM fun a =>
      a.apply σ parameter (r.spec.handedOn parameter) (nest a.declaration) r.spec.source source
  r.spec.after.forM fun h => h.run σ parameter source

/-- Update a destination. -/
def update (σ : Schema) (r : Routine) (nest : Nat → Nesting ω) (parameter : Option Value)
    (source : Value) : Run (Specification.Updating ω) Unit :=
  Run.zoom
    (fun u => ({ destination := u.destination, call := { trail := u.trail } } : Assembly ω))
    (fun _ a => { destination := a.destination, trail := a.call.trail })
    (r.body σ nest parameter source)

/-- Construct a destination. -/
def construct (σ : Schema) (r : Routine) (nest : Nat → Nesting ω) (parameter : Option Value)
    (source : Value) : Run (Trail ω) Value :=
  Run.zoom
    (fun t => ({ trail := t } : Call ω))
    (fun _ c => c.trail)
    do
      let start ← r.spec.create σ parameter source
      Run.zoom
        (fun c => ({ destination := start, call := c } : Assembly ω))
        (fun _ a => a.call)
        do
          r.body σ nest parameter source
          return (← get).destination

end Routine

/-! ## §3. Bundles -/

/-- The routines compiled for one pairing. -/
structure Bundle (ω : Type) where
  source : String
  destination : String
  profile : Option String
  parameter : Option Ty
  update : Option ((Nat → Nesting ω) → Option Value → Value →
    Run (Specification.Updating ω) Unit)
  construct : Option ((Nat → Nesting ω) → Option Value → Value → Run (Trail ω) Value)
  updateWith : Option ((Nat → Nesting ω) → Option Value → Value →
    Run (Specification.Updating ω) Unit)
  constructWith : Option ((Nat → Nesting ω) → Option Value → Value → Run (Trail ω) Value)

/-- The assignments a specification is compiled to; a plan without a value source is
skipped. -/
def Specification.assignments (s : Specification) : List Assignment :=
  s.members.filterMap fun p => p.parts.assignment?

/-- A routine for a shape, if the specification asks for the shape. -/
def Specification.routine? {α : Type} (s : Specification) (shape : Shape) (f : α) : Option α :=
  if s.shapes.contains shape then some f else none

/-- **Synthesis** of the routines a specification asks for.  The shapes without a
parameter ignore the one they are given. -/
def synthesize (σ : Schema) (s : Specification) : Bundle ω :=
  let routine : Routine := { spec := s, assignments := s.assignments }
  { source := s.source, destination := s.destination, profile := s.profile
    parameter := s.parameter
    update := s.routine? .update fun nest _ source => routine.update σ nest none source
    construct := s.routine? .construct fun nest _ source => routine.construct σ nest none source
    updateWith := s.routine? .updateWith (routine.update σ)
    constructWith := s.routine? .constructWith (routine.construct σ) }

namespace Bundle

/-- The shapes of a bundle are those it has a routine for. -/
def shapes (b : Bundle ω) : Shapes where
  contains
    | .update => b.update.isSome
    | .construct => b.construct.isSome
    | .updateWith => b.updateWith.isSome
    | .constructWith => b.constructWith.isSome

/-- The error of a call in a shape the bundle lacks. -/
def missing (σ : Schema) (b : Bundle ω) (shape : Shape) : MapError :=
  .shapeNotCompiled shape.name
    ((⟨.record b.source, .record b.destination, none⟩ : Pairing).name σ)

/-- A parameter has the declared type, if one is declared. -/
def checkParameter {s : Type} (σ : Schema) (b : Bundle ω) (parameter : Value) : Run s Unit :=
  match b.parameter with
  | some t => if parameter.type = t then return () else throw (.parameterType (σ.name t))
  | none => return ()

/-- Copy members into an existing destination. -/
def runUpdate (σ : Schema) (b : Bundle ω) (nest : Nat → Nesting ω) (source : Value) :
    Run (Specification.Updating ω) Unit := do
  let f ← Run.require b.update (b.missing σ .update)
  f nest none source

/-- Construct a destination. -/
def runConstruct (σ : Schema) (b : Bundle ω) (nest : Nat → Nesting ω) (source : Value) :
    Run (Trail ω) Value := do
  let f ← Run.require b.construct (b.missing σ .construct)
  f nest none source

/-- Update with an auxiliary parameter. -/
def runUpdateWith (σ : Schema) (b : Bundle ω) (nest : Nat → Nesting ω)
    (source parameter : Value) : Run (Specification.Updating ω) Unit := do
  let f ← Run.require b.updateWith (b.missing σ .updateWith)
  b.checkParameter σ parameter
  f nest (some parameter) source

/-- Construct with an auxiliary parameter. -/
def runConstructWith (σ : Schema) (b : Bundle ω) (nest : Nat → Nesting ω)
    (source parameter : Value) : Run (Trail ω) Value := do
  let f ← Run.require b.constructWith (b.missing σ .constructWith)
  b.checkParameter σ parameter
  f nest (some parameter) source

/-- Construction from any value, through the routine that fits the parameter. -/
def constructAny (σ : Schema) (b : Bundle ω) (nest : Nat → Nesting ω) (source : Value)
    (parameter : Option Value) : Run (Trail ω) Value := do
  let source ← Run.require (source.as? (.record b.source))
    (.typeMismatch (σ.name (.record b.source)))
  match parameter, b.constructWith, b.construct with
  | some p, some f, _ => do
      b.checkParameter σ p
      f nest (some p) source
  | _, _, some f => f nest none source
  | none, some f, none => f nest none source
  | _, none, none => throw (b.missing σ .construct)

end Bundle

end RecordMap
