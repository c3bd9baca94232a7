import RecordMap.Proofs.Plan.Planned

/-!
# The problems of a mapping

The search for the plan of a member notes problems, each under the name of that member
(`Config.names_fateOf`).  One kind of problem needs more than its name: a member is said to nest
its own mapping just if a conversion to it leads to the coordinates of the mapping
(`Config.NestsItself`).

The ledger collects the problems of all searches.  Under one name, it has those of the
configuration and then those of the members of the name, in that order and no other
(`Config.named_ledger`).
-/

namespace RecordMap

/-! ## §1. Problems of one member -/

namespace Config

variable {σ : Schema} {c : Config} {d : Defaults} {i : Nat} {f : RecordMap.Field}

/-- **A member nests its own mapping**: it is to be read, through a conversion that leads to the
coordinates of the mapping itself. -/
def NestsItself (σ : Schema) (c : Config) (d : Defaults) (f : RecordMap.Field) : Prop :=
  c.ignores f.name = false ∧ (c.origins f.name).length ≤ 1 ∧
    c.constant? d (c.origin? f.name) f.type = none ∧
    ∃ a conversion, c.source? σ d f.name f.type (c.origin? f.name) = some (a, conversion) ∧
      c.pairing ∈ conversion.pairings

/-- **A problem found in the search for a member** is the reason why it is rejected. -/
theorem rejects_of_problem {x : Diagnostic} (hx : x ∈ (c.fateOf σ d i f).2.problems) :
    (c.fateOf σ d i f).1 = .rejected ∧ c.Heeds f.name ∧ ∃ j, c.Rejects σ d f x j := by
  obtain ⟨fate, fs, j, hfate, hcomes⟩ := comes_fateOf (σ := σ) (c := c) (d := d) i f
  rw [hfate] at hx ⊢
  unfold Notes.problems at hx
  cases hcomes with
  | rejected heeds before rejects =>
    rw [List.filterMap_append, before, List.nil_append] at hx
    cases List.mem_singleton.mp hx
    exact ⟨rfl, heeds, j, rejects⟩
  | _ => simp at hx

/-- **Every problem found in the search for a member names it.** -/
theorem names_fateOf (declaration : Nat) (f : RecordMap.Field) :
    ∀ x ∈ (c.fateOf σ d declaration f).2.problems, x.member? = some f.name := by
  intro x hx
  obtain ⟨-, -, j, hrejects⟩ := rejects_of_problem hx
  exact hrejects.names

end Config

/-! ## §2. Problems under a name -/

/-- The problems that name a member, in their order. -/
def Diagnostic.named (member : String) (ds : List Diagnostic) : List Diagnostic :=
  ds.filter (·.member? = some member)

@[simp] theorem Diagnostic.named_append (member : String) (ds es : List Diagnostic) :
    named member (ds ++ es) = named member ds ++ named member es := List.filter_append ..

open Diagnostic (named named_append)

namespace Ledger

variable {σ : Schema} (member : String)

theorem named_report (l : Ledger) (x : Diagnostic) :
    named member (l.report x).problems = named member l.problems ++ named member [x] :=
  named_append member l.problems [x]

/-- A conflict among parameters names no member. -/
theorem named_noteParameter (l : Ledger) (t : Ty) :
    named member (l.noteParameter σ t).problems = named member l.problems := by
  unfold noteParameter
  split
  · rfl
  · split
    · rfl
    · exact (named_report member l _).trans (List.append_nil _)

theorem named_enter (l : Ledger) (f : Finding) :
    named member (l.enter σ f).problems =
      named member l.problems ++ named member f.problem?.toList := by
  cases f with
  | problem x => exact named_report member l x
  | parameter t => exact (named_noteParameter member l t).trans (List.append_nil _).symm
  | converter => exact (List.append_nil _).symm
  | flattened => exact (List.append_nil _).symm

/-- What one step adds under a name, all steps add one after another. -/
theorem named_foldl {α : Type} {step : Ledger → α → Ledger} (added : α → List Diagnostic)
    (hstep : ∀ l a, named member (step l a).problems =
      named member l.problems ++ named member (added a)) (as : List α) (l : Ledger) :
    named member (as.foldl step l).problems =
      named member l.problems ++ named member (as.flatMap added) := by
  induction as generalizing l with
  | nil => exact (List.append_nil _).symm
  | cons a as ih =>
    rw [List.foldl_cons, ih, hstep, List.flatMap_cons, named_append, List.append_assoc]

theorem named_enterMember (l : Ledger) (v : Fate × Notes) :
    named member (l.enterMember σ v).problems =
      named member l.problems ++ named member v.2.problems := by
  unfold enterMember Notes.problems
  rw [problems_settle, named_foldl member _ (named_enter member), List.filterMap_eq_flatMap_toList]

end Ledger

namespace Config

variable {σ : Schema} {c : Config} {d : Defaults}

/-- **The problems under a name** are those of the session before, then the one with what is
configured under the name, and then those of the members of the name. -/
theorem named_ledger (member : String) (verdicts : List (Fate × Notes)) (session : Session) :
    named member (c.ledger σ verdicts session).problems =
      named member session.diagnostics ++ named member (c.members.filterMap (c.problem? σ)) ++
        named member (verdicts.flatMap (·.2.problems)) := by
  have hreports := Ledger.named_foldl member (fun x => [x]) (Ledger.named_report member)
    (c.members.filterMap (c.problem? σ)) { session }
  have hmembers := Ledger.named_foldl member _ (Ledger.named_enterMember (σ := σ) member) verdicts
    ((c.members.filterMap (c.problem? σ)).foldl Ledger.report { session })
  have hparameters : ∀ (ts : List Ty) (l : Ledger), named member
      (ts.foldl (Ledger.noteParameter σ) l).problems = named member l.problems := by
    intro ts
    induction ts with
    | nil => exact fun _ => rfl
    | cons t ts ih => exact fun l => (ih _).trans (Ledger.named_noteParameter member l t)
  have hentered : named member (c.entered σ verdicts session).problems =
      named member session.diagnostics ++ named member (c.members.filterMap (c.problem? σ)) ++
        named member (verdicts.flatMap (·.2.problems)) := by
    unfold entered
    dsimp only
    rw [hparameters, hmembers, hreports, List.flatMap_singleton']
    rfl
  unfold ledger
  dsimp only
  split
  · -- A lack of shapes names no member.
    rw [Ledger.named_report, hentered]
    exact List.append_nil _
  · exact hentered

end Config

end RecordMap
