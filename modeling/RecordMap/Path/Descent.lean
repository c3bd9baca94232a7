import RecordMap.Path

/-!
# The descent to a flattened path

The search for a flattened path descends into one member after another.  It carries two
stacks: the names passed so far, and the steps between them.  Entering a member pushes its
name and its step.  If neither the member nor anything below it is accepted, both are popped
again and the next member is tried.  No member is entered once the stack of names is full.

What is left on the stacks when a member is accepted is the path.
-/

namespace RecordMap.Path

/-! ## §1. Stacks -/

/-- The names passed so far, and the steps between them; the last one is on top. -/
structure Stacks where
  names : List String
  steps : List Step := []
  deriving DecidableEq, Repr

namespace Stacks

/-- Enter a member. -/
def push (s : Stacks) (name : String) (step : Step) : Stacks where
  names := s.names ++ [name]
  steps := s.steps ++ [step]

/-- Leave the member entered last. -/
def pop (s : Stacks) : Stacks where
  names := s.names.dropLast
  steps := s.steps.dropLast

@[simp] theorem pop_push (s : Stacks) (name : String) (step : Step) :
    (s.push name step).pop = s := by
  simp [push, pop]

@[simp] theorem length_names_push (s : Stacks) (name : String) (step : Step) :
    (s.push name step).names.length = s.names.length + 1 := by
  simp [push]

end Stacks

/-! ## §2. The descent -/

/-- Try members in turn until one of them leads to a type. -/
def tryEach (visit : Nat × Field → Stacks → Option Ty × Stacks) :
    List (Nat × Field) → Stacks → Option Ty × Stacks
  | [], s => (none, s)
  | x :: rest, s =>
      match visit x s with
      | (some found, s) => (some found, s)
      | (none, s) => tryEach visit rest s

/-- **The descent** from a value of a type: the type of the member accepted, with the stacks
as they then are.  It goes no further down than a number of members. -/
def descend (σ : Schema) (accepts : String → Bool) : Nat → Ty → Stacks → Option Ty × Stacks
  | 0, _, s => (none, s)
  | room + 1, t, s =>
      if maxFlattened ≤ s.names.length then (none, s)
      else
        match enters? t with
        | none => (none, s)
        | some (opens, r) =>
            tryEach (fun (i, f) s =>
              let s := s.push f.name { opens, record := r, index := i }
              if accepts (Text.join "_" s.names) then (some f.type, s)
              else
                match descend σ accepts room f.type s with
                | (some found, s) => (some found, s)
                | (none, s) => (none, s.pop)) (readable σ r) s

/-- **The search for a flattened path**, by a descent into each readable member of the
source.  The descent stops by itself, at full stacks. -/
def search? (σ : Schema) (source target : String) (m : Matcher) : Option Path :=
  (readable σ source).findSome? fun (i, f) =>
    match descend σ (m.accepts target) maxFlattened f.type { names := [f.name] } with
    | (some terminal, s) => some { head := i, steps := s.steps, terminal, names := s.names }
    | (none, _) => none

end RecordMap.Path
