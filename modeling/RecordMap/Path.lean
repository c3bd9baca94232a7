import RecordMap.Matcher
import RecordMap.Text.Segments
import RecordMap.Value

/-!
# Source paths

A path leads from a source record through readable members to the member it
reads.  Between two segments lies a step: the value read so far is a record, or
an option over a record which has to be opened first.  Reading along a path
gives nothing exactly when an option to be opened is empty.

Paths come from three places: an explicit dotted text (`Path.parse?`), a single
member (`Path.ofMember?`), and the search for a chain of members whose names
joined by underscores match a destination name (`Path.flatten?`).
-/

namespace RecordMap

/-- A step past the first segment. -/
structure Path.Step where
  /-- The value read so far is an option, to be opened. -/
  opens : Bool
  /-- The record stepped into. -/
  record : String
  /-- The position of the member in it. -/
  index : Nat
  deriving DecidableEq, Repr

/-- A path through the members of a record. -/
structure Path where
  /-- Position of the first member. -/
  head : Nat
  steps : List Path.Step := []
  /-- The type of the last member. -/
  terminal : Ty
  /-- The names along the path. -/
  names : List String
  deriving DecidableEq, Repr

namespace Path

/-! ## §1. Reading -/

/-- The written form of a path. -/
def display (p : Path) : String := Text.join "." p.names

/-- Some step has an option to open. -/
def mayBreak (p : Path) : Bool := p.steps.any (·.opens)

/-- Read one step further. -/
def Step.read? (σ : Schema) (s : Step) (v : Value) : Option Value :=
  if s.opens then (v.content? (.record s.record)).bind (·.member? σ s.record s.index)
  else v.member? σ s.record s.index

/-- Read steps in order. -/
def readSteps? (σ : Schema) : List Step → Value → Option Value
  | [], v => some v
  | s :: rest, v => (s.read? σ v).bind (readSteps? σ rest)

/-- **Reading** along a path, from a record of the given name. -/
def read? (σ : Schema) (source : String) (p : Path) (v : Value) : Option Value :=
  (v.member? σ source p.head).bind (readSteps? σ p.steps)

/-- The dump of a path. -/
def dump (σ : Schema) (p : Path) : String :=
  "MemberPath(" ++ p.display ++ ": " ++ σ.name p.terminal ++ ")"

/-! ## §2. Extending -/

/-- The record that can be stepped into from a value of a type, and whether an
option lies before it. -/
def enters? : Ty → Option (Bool × String)
  | .record r => some (false, r)
  | .option (.record r) => some (true, r)
  | _ => none

/-- A path followed by one more member. -/
def extend (p : Path) (opens : Bool) (record : String) (index : Nat) (f : Field) : Path where
  head := p.head
  steps := p.steps ++ [{ opens, record, index }]
  terminal := f.type
  names := p.names ++ [f.name]

/-- The path of one member. -/
def single (index : Nat) (f : Field) : Path where
  head := index
  terminal := f.type
  names := [f.name]

/-- The members of a record that can be read, with their positions. -/
def readable (σ : Schema) (r : String) : List (Nat × Field) :=
  (σ.fields r).zipIdx.filterMap fun (f, i) => if f.readable then some (i, f) else none

theorem mem_readable {σ : Schema} {r : String} {i : Nat} {f : Field} :
    (i, f) ∈ readable σ r ↔ (σ.fields r)[i]? = some f ∧ f.readable = true := by
  unfold readable
  rw [List.mem_filterMap]
  constructor
  · intro h
    obtain ⟨⟨g, j⟩, hmem, hsome⟩ := h
    dsimp only at hsome
    split at hsome
    · rename_i hreadable
      cases hsome
      exact ⟨List.mem_zipIdx_iff_getElem?.mp hmem, hreadable⟩
    · cases hsome
  · intro h
    obtain ⟨hi, hreadable⟩ := h
    exact ⟨(f, i), List.mem_zipIdx_iff_getElem?.mpr hi, if_pos hreadable⟩

/-! ## §3. Explicit paths -/

/-- Follow names from a value of a type: the steps taken and the type reached.
Each name is that of a readable member of the record stepped into. -/
def follow? (σ : Schema) : List String → Ty → Option (List Step × Ty)
  | [], t => some ([], t)
  | name :: rest, t => do
      let (opens, record) ← enters? t
      let (index, f) ← (readable σ record).find? (·.2.name == name)
      let (steps, terminal) ← follow? σ rest f.type
      return ({ opens, record, index } :: steps, terminal)

/-- The path of one member: the first of that name, if it is readable. -/
def ofMember? (σ : Schema) (source name : String) : Option Path := do
  let (f, i) ← (σ.fields source).zipIdx.find? (·.1.name == name)
  if f.readable then some (single i f) else none

/-- **Explicit paths**: the path a dotted text describes. -/
def parse? (σ : Schema) (source text : String) : Option Path :=
  match Text.segments text with
  | [] => none
  | first :: rest => do
      let p ← ofMember? σ source first
      let (steps, terminal) ← follow? σ rest p.terminal
      return { p with steps, terminal, names := first :: rest }

/-! ## §4. Flattened paths -/

/-- The longest flattened path, in segments. -/
def maxFlattened : Nat := 4

/-- All extensions of a path by at most so many members, each before its own
extensions, in declaration order. -/
def extensions (σ : Schema) : Nat → Path → List Path
  | 0, _ => []
  | n + 1, p =>
      match enters? p.terminal with
      | none => []
      | some (opens, r) =>
          (readable σ r).flatMap fun (i, f) =>
            let q := p.extend opens r i f
            q :: extensions σ n q

/-- The paths of two to four segments, in the order of the search. -/
def candidates (σ : Schema) (source : String) : List Path :=
  (readable σ source).flatMap fun (i, f) => extensions σ (maxFlattened - 1) (single i f)

/-- The first accepted extension of a path by at most so many members.  Nothing
past it is looked at. -/
def firstExtension? (σ : Schema) (accepts : Path → Bool) : Nat → Path → Option Path
  | 0, _ => none
  | n + 1, p =>
      match enters? p.terminal with
      | none => none
      | some (opens, r) =>
          (readable σ r).findSome? fun (i, f) =>
            let q := p.extend opens r i f
            if accepts q then some q else firstExtension? σ accepts n q

/-- The names of a path, joined by underscores, match the name of a destination
member. -/
def isFlattenedTo (m : Matcher) (target : String) (p : Path) : Bool :=
  m.accepts target (Text.join "_" p.names)

/-- **Flattening**: the first path of two to four segments whose names match the
name of a destination member. -/
def flatten? (σ : Schema) (source target : String) (m : Matcher) : Option Path :=
  (readable σ source).findSome? fun (i, f) =>
    firstExtension? σ (isFlattenedTo m target) (maxFlattened - 1) (single i f)

theorem firstExtension?_eq (σ : Schema) (accepts : Path → Bool) (n : Nat) (p : Path) :
    firstExtension? σ accepts n p = (extensions σ n p).find? accepts := by
  induction n generalizing p with
  | zero => rfl
  | succ n ih =>
      unfold firstExtension? extensions
      cases enters? p.terminal with
      | none => rfl
      | some entry =>
          obtain ⟨opens, r⟩ := entry
          show (readable σ r).findSome? _ = List.find? accepts ((readable σ r).flatMap _)
          rw [List.find?_flatMap]
          congr 1
          funext ⟨i, f⟩
          simp only [List.find?_cons, ih]
          cases accepts (p.extend opens r i f) <;> rfl

/-- The search finds the first of all candidates. -/
theorem flatten?_eq (σ : Schema) (source target : String) (m : Matcher) :
    flatten? σ source target m = (candidates σ source).find? (isFlattenedTo m target) := by
  unfold flatten? candidates
  rw [List.find?_flatMap]
  congr 1
  funext ⟨i, f⟩
  exact firstExtension?_eq σ _ _ _

end Path

end RecordMap
