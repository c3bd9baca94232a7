import RecordMap.Plan.Search

/-!
# Resolving a configuration

A configuration is resolved against the defaults into a specification, with a
build session at its side.  The problems of all members are reported together:
first those of the configuration as such, then those of each member in
declaration order, then conflicts among the parameters of the hooks, and last a
lack of calling shapes.

The auxiliary parameter of the mapping is the first type that any callback
declares.  Every other declared type is a conflict, reported once.
-/

namespace RecordMap

/-! ## §1. The ledger -/

/-- The session with the parameter types seen so far. -/
structure Ledger where
  session : Session
  /-- The first parameter type declared. -/
  first : Option Ty := none
  /-- Conflicting types already reported. -/
  reported : List Ty := []

namespace Ledger

/-- Record a problem. -/
def report (l : Ledger) (d : Diagnostic) : Ledger := { l with session := l.session.report d }

/-- Note a declared parameter type. -/
def noteParameter (σ : Schema) (l : Ledger) (t : Ty) : Ledger :=
  match l.first with
  | none => { l with first := some t }
  | some first =>
      if first = t ∨ t ∈ l.reported then l
      else
        { l.report (.conflictingParameterTypes (σ.name first) (σ.name t)) with
          reported := t :: l.reported }

/-- Enter a finding. -/
def enter (σ : Schema) (l : Ledger) : Finding → Ledger
  | .problem d => l.report d
  | .parameter t => l.noteParameter σ t
  | .converter => { l with session := l.session.countConverter }
  | .flattened => { l with session := l.session.countFlattened }

/-- Count the fate of a member. -/
def settle (l : Ledger) : Fate → Ledger
  | .ignored => { l with session := l.session.countIgnored }
  | .excluded => { l with session := l.session.countExcluded }
  | .rejected => l
  | .planned p => { l with session := l.session.countMember p.strategy }

/-- Enter all that is known of one member. -/
def enterMember (σ : Schema) (l : Ledger) (verdict : Fate × Notes) : Ledger :=
  (verdict.2.findings.foldl (enter σ) l).settle verdict.1

end Ledger

namespace Config

/-! ## §2. Problems of the configuration -/

/-- The destination has a writable member of the name. -/
def isWritable (σ : Schema) (c : Config) (name : String) : Bool :=
  (σ.fields c.destination).any fun f => f.name = name ∧ f.writable

/-- The problem with what is configured for one member, if there is one. -/
def problem? (σ : Schema) (c : Config) (m : MemberConfig) : Option Diagnostic :=
  if !c.isWritable σ m.name then some (.unknownMember m.name)
  else if !m.ignored ∧ 1 < m.origins.length then
    some (.duplicateMapping m.name m.origins.length)
  else none

/-! ## §3. The specification -/

/-- The fates of the writable members, in declaration order. -/
def verdicts (σ : Schema) (c : Config) (d : Defaults) : List (Fate × Notes) :=
  ((σ.fields c.destination).zipIdx.filter (·.1.writable)).map fun (f, i) => c.fateOf σ d i f

/-- The plans among fates. -/
def plans (verdicts : List (Fate × Notes)) : List MemberPlan :=
  verdicts.filterMap fun (fate, _) =>
    match fate with
    | .planned p => some p
    | _ => none

/-- How destinations are created. -/
def creation (c : Config) (d : Defaults) : Creation :=
  match c.factory with
  | some f => .custom f
  | none =>
      match d.factories.get? (.record c.destination) with
      | some v => .fallback v
      | none => .zero

/-- The parameter types declared by the callbacks of the mapping as a whole. -/
def mappingParameters (c : Config) : List Ty :=
  (c.factory.bind (·.parameter?)).toList
    ++ c.before.filterMap (·.parameter?)
    ++ c.after.filterMap (·.parameter?)
    ++ c.guards.filterMap (·.parameter?)

/-- The shapes a mapping is compiled for: needing a parameter rules out those
without one. -/
def shapesFor (c : Config) (parameter : Option Ty) : Shapes :=
  if parameter.isSome then c.shapes.withoutPlain else c.shapes

/-- Why no calling shape is left. -/
def noShapesReason (σ : Schema) : Option Ty → String
  | some t =>
      "callbacks require a parameter of type " ++ σ.name t ++
        " but only parameterless shapes were requested"
  | none => "no calling shape was requested"

/-- The specification of a configuration without problems. -/
def specification (c : Config) (d : Defaults) (verdicts : List (Fate × Notes))
    (parameter : Option Ty) : Specification where
  source := c.source
  destination := c.destination
  profile := c.profile
  members := (plans verdicts).mergeSort MemberPlan.comesBefore
  creation := c.creation d
  before := c.before
  after := c.after
  guards := c.guards
  parameter
  shapes := c.shapesFor parameter

/-! ## §4. Resolving -/

/-- The ledger before the shapes are looked at. -/
def entered (σ : Schema) (c : Config) (verdicts : List (Fate × Notes)) (session : Session) :
    Ledger :=
  let ledger := (c.members.filterMap (c.problem? σ)).foldl Ledger.report { session }
  let ledger := verdicts.foldl (Ledger.enterMember σ) ledger
  c.mappingParameters.foldl (Ledger.noteParameter σ) ledger

/-- **The ledger** with all problems and counts of a configuration. -/
def ledger (σ : Schema) (c : Config) (verdicts : List (Fate × Notes)) (session : Session) :
    Ledger :=
  let ledger := c.entered σ verdicts session
  if (c.shapesFor ledger.first).isEmpty then
    ledger.report (.noShapes (noShapesReason σ ledger.first))
  else ledger

/-- What resolving a configuration gives: the specification or an error, the
session afterwards, and the callbacks run for constants. -/
structure Resolution where
  result : Except BuildError Specification
  session : Session
  journal : Journal

/-- **Resolving a configuration.**  All problems come out together. -/
def resolve (σ : Schema) (c : Config) (d : Defaults) (session : Session) : Resolution :=
  let verdicts := c.verdicts σ d
  let ledger := c.ledger σ verdicts session
  let (ended, session) := ledger.session.finish
  { session
    result := ended.map fun _ => c.specification d verdicts ledger.first
    journal := Journal.concat (verdicts.map (·.2.journal)) }

end Config

end RecordMap
