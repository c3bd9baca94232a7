import RecordMap.Proofs.Run.Ensures
import RecordMap.Synthesis

/-!
# Bundles and mappers

A bundle of compiled routines answers each call as the mapper of its specification
does: assignments assign what the plans say, and a call in a shape without a routine
is a call in a shape the mapper lacks.  So what is proved of mappers holds of what is
compiled from them.
-/

namespace RecordMap

variable {ω : Type}

/-! ## §1. Assignments -/

/-- The assignment of a plan. -/
def MemberPlan.assignment (p : MemberPlan) : Assignment where
  member := p.member
  type := p.type
  declaration := p.declaration
  conditions := p.conditions
  value :=
    match p.production with
    | .constant v => .constant v
    | .read a k _ => .read a k
  fallback := p.production.sentinel?

theorem MemberPlan.assignment?_parts (p : MemberPlan) :
    p.parts.assignment? = some p.assignment := by
  unfold MemberPlan.parts MemberPlan.assignment
  cases p.production <;> rfl

theorem MemberPlan.apply_assignment (σ : Schema) (parameter handedOn : Option Value)
    (nest : Nesting ω) (recordName : String) (source : Value) (p : MemberPlan) :
    p.assignment.apply σ parameter handedOn nest recordName source =
      p.assign σ parameter handedOn nest recordName source := by
  have hvalue : ∀ destination, p.assignment.produce σ parameter handedOn nest recordName source
      destination = p.value σ parameter handedOn nest recordName source destination := by
    intro destination
    unfold Assignment.produce MemberPlan.assignment MemberPlan.value
    cases p.production <;> rfl
  unfold Assignment.apply MemberPlan.assign
  simp only [hvalue]
  rfl

/-- Every plan is compiled. -/
theorem Specification.assignments_eq (s : Specification) :
    s.assignments = s.members.map MemberPlan.assignment := by
  unfold assignments
  rw [← List.filterMap_eq_map]
  congr 1
  funext p
  exact p.assignment?_parts

/-! ## §2. Routines -/

namespace Routine

variable (σ : Schema) (s : Specification) (nest : Nat → Nesting ω) (parameter : Option Value)
  (source : Value)

theorem forM_assignments :
    (s.assignments.forM fun a =>
      a.apply σ parameter (s.handedOn parameter) (nest a.declaration) s.source source) =
      s.assignMembers σ nest parameter source := by
  rw [s.assignments_eq]
  refine List.forM_map.trans ?_
  exact Run.Sequential.eq.forM fun p _ => p.apply_assignment σ parameter _ _ _ source

theorem body_eq : body σ ⟨s, s.assignments⟩ nest parameter source =
    s.body σ nest parameter source := by
  unfold body Specification.body
  rw [forM_assignments]

theorem update_eq : update σ ⟨s, s.assignments⟩ nest parameter source =
    s.update σ nest parameter source := by
  unfold update Specification.update
  rw [body_eq]

theorem construct_eq : construct σ ⟨s, s.assignments⟩ nest parameter source =
    s.construct σ nest parameter source := by
  unfold construct Specification.construct
  simp only [body_eq]

end Routine

/-! ## §3. Calls -/

/-- Calling a routine for a shape is calling it if the mapper has the shape. -/
theorem Specification.require_routine? {α β t : Type} (σ : Schema) (s : Specification)
    (shape : Shape) (f : α) (k : α → Run t β) :
    (do
      let f ← Run.require (s.routine? shape f) ((⟨s⟩ : Mapper).missing σ shape)
      k f) = (do
      (⟨s⟩ : Mapper).demand σ shape
      k f) := by
  unfold routine? Mapper.demand
  rw [show (⟨s⟩ : Mapper).shapes.contains shape = s.shapes.contains shape from rfl]
  cases s.shapes.contains shape <;> rfl

namespace Bundle

variable (σ : Schema) (s : Specification) (nest : Nat → Nesting ω)

/-- **A bundle updates** as the mapper of its specification does. -/
theorem runUpdate_synthesize (source : Value) :
    (synthesize σ s).runUpdate σ nest source = (⟨s⟩ : Mapper).update σ nest source := by
  refine (s.require_routine? σ .update _ _).trans ?_
  simp only [Routine.update_eq]
  rfl

/-- **A bundle constructs** as the mapper of its specification does. -/
theorem runConstruct_synthesize (source : Value) :
    (synthesize σ s).runConstruct σ nest source = (⟨s⟩ : Mapper).construct σ nest source := by
  refine (s.require_routine? σ .construct _ _).trans ?_
  simp only [Routine.construct_eq]
  rfl

theorem runUpdateWith_synthesize (source parameter : Value) :
    (synthesize σ s).runUpdateWith σ nest source parameter =
      (⟨s⟩ : Mapper).updateWith σ nest source parameter := by
  refine (s.require_routine? σ .updateWith _ _).trans ?_
  simp only [Routine.update_eq]
  rfl

theorem runConstructWith_synthesize (source parameter : Value) :
    (synthesize σ s).runConstructWith σ nest source parameter =
      (⟨s⟩ : Mapper).constructWith σ nest source parameter := by
  refine (s.require_routine? σ .constructWith _ _).trans ?_
  simp only [Routine.construct_eq]
  rfl

/-- **Nested construction** goes through the routine the mapper goes through. -/
theorem constructAny_synthesize (source : Value) (parameter : Option Value) :
    (synthesize σ s).constructAny σ nest source parameter =
      (⟨s⟩ : Mapper).constructAny σ nest source parameter := by
  have hwith : (synthesize (ω := ω) σ s).constructWith =
      s.routine? .constructWith (s.construct σ) :=
    congrArg (s.routine? _) <| funext fun nest => funext fun parameter => funext fun source =>
      Routine.construct_eq σ s nest parameter source
  have hplain : (synthesize (ω := ω) σ s).construct =
      s.routine? .construct fun nest _ source => s.construct σ nest none source :=
    congrArg (s.routine? _) <| funext fun nest => funext fun _ => funext fun source =>
      Routine.construct_eq σ s nest none source
  unfold constructAny Mapper.constructAny Mapper.shapes
  rw [hwith, hplain]
  unfold Specification.routine?
  -- Which routine it is depends on the parameter and on the two shapes alone.
  cases s.shapes.contains .constructWith <;> cases s.shapes.contains .construct <;>
    cases parameter <;> rfl

/-- **A bundle runs as a mapper**: a call of the one, in any shape or from any value, is the
same run as that call of the other. -/
structure RunsAs (σ : Schema) (b : Bundle ω) (m : Mapper) : Prop where
  update : ∀ nest source, b.runUpdate σ nest source = m.update σ nest source
  construct : ∀ nest source, b.runConstruct σ nest source = m.construct σ nest source
  updateWith : ∀ nest source parameter,
    b.runUpdateWith σ nest source parameter = m.updateWith σ nest source parameter
  constructWith : ∀ nest source parameter,
    b.runConstructWith σ nest source parameter = m.constructWith σ nest source parameter
  constructAny : ∀ nest source parameter,
    b.constructAny σ nest source parameter = m.constructAny σ nest source parameter

/-- **What is synthesized runs as the mapper** of the specification. -/
theorem runsAs_synthesize : (synthesize (ω := ω) σ s).RunsAs σ ⟨s⟩ where
  update := runUpdate_synthesize σ s
  construct := runConstruct_synthesize σ s
  updateWith := runUpdateWith_synthesize σ s
  constructWith := runConstructWith_synthesize σ s
  constructAny := constructAny_synthesize σ s

end Bundle

end RecordMap
