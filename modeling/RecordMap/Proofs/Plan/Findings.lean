import RecordMap.Plan.Search
import RecordMap.Proofs.Run.Ensures

/-!
# How a search ends

The search for the plan of a member looks at what is configured and at what it has found,
but never at what has been noted before it.  So `Search.Ends x r fs j` says all there is to
say of a search: it has the result `r`, adds the findings `fs` and has run the callbacks of
`j`, whatever came before.  There is one rule for each way a search is put together.

What findings come to is read off them: the problems, the types that callbacks declare, and
how many converters were linked.
-/

namespace RecordMap

/-! ## §1. Findings -/

/-- The member a diagnostic names. -/
def Diagnostic.member? : Diagnostic → Option String
  | unknownMember member | unknownSourcePath member _ | noConversion member _ _
  | duplicateMapping member _ | constantConversion member _ | selfReferentialNesting member _ =>
      some member
  | conflictingParameterTypes .. | noShapes _ => none

namespace Finding

/-- The finding is a converter that was linked. -/
def isConverter : Finding → Bool
  | converter => true
  | _ => false

/-- The number of converters linked. -/
def linked (fs : List Finding) : Nat := fs.countP isConverter

@[simp] theorem linked_append (fs gs : List Finding) : linked (fs ++ gs) = linked fs + linked gs :=
  List.countP_append

/-- The problem a finding is, if it is one. -/
def problem? : Finding → Option Diagnostic
  | problem d => some d
  | _ => none

/-- Some problem found names the member. -/
def Blames (member : String) (fs : List Finding) : Prop :=
  ∃ d, .problem d ∈ fs ∧ d.member? = some member

/-- The type declared by a finding, if it is one of a callback. -/
def parameter? : Finding → Option Ty
  | parameter t => some t
  | _ => none

/-- The types declared by findings, in order. -/
def parameters (fs : List Finding) : List Ty := fs.filterMap parameter?

@[simp] theorem parameters_append (fs gs : List Finding) :
    parameters (fs ++ gs) = parameters fs ++ parameters gs := List.filterMap_append

theorem mem_parameters {fs : List Finding} {t : Ty} : t ∈ parameters fs ↔ .parameter t ∈ fs := by
  unfold parameters
  rw [List.mem_filterMap]
  constructor
  · intro h
    obtain ⟨f, hf, ht⟩ := h
    cases f with
    | parameter u =>
      cases ht
      exact hf
    | _ => cases ht
  · intro h
    exact ⟨.parameter t, h, rfl⟩

/-! ### Findings of callbacks -/

/-- What is noted of callbacks that declare types. -/
def ofTypes (ts : List Ty) : List Finding := ts.map parameter

@[simp] theorem linked_ofTypes (ts : List Ty) : linked (ofTypes ts) = 0 := by
  simp [linked, ofTypes, isConverter]

@[simp] theorem parameters_ofTypes (ts : List Ty) : parameters (ofTypes ts) = ts := by
  simp [parameters, ofTypes, parameter?, List.filterMap_map, Function.comp_def]

@[simp] theorem problems_ofTypes (ts : List Ty) : (ofTypes ts).filterMap problem? = [] := by
  simp [ofTypes, problem?, List.filterMap_map, Function.comp_def]

/-- What is noted of converters that are linked: the type of each, and that it is linked. -/
def ofConverters (ks : List Converter) : List Finding :=
  ks.flatMap fun k => ofTypes k.parameter?.toList ++ [converter]

@[simp] theorem linked_ofConverters (ks : List Converter) :
    linked (ofConverters ks) = ks.length := by
  induction ks with
  | nil => rfl
  | cons k ks ih =>
    show linked ((ofTypes k.parameter?.toList ++ [converter]) ++ ofConverters ks) = _
    rw [linked_append, linked_append, linked_ofTypes, ih, List.length_cons]
    show 0 + 1 + ks.length = ks.length + 1
    omega

@[simp] theorem parameters_ofConverters (ks : List Converter) :
    parameters (ofConverters ks) = ks.filterMap (·.parameter?) := by
  induction ks with
  | nil => rfl
  | cons k ks ih =>
    show parameters ((ofTypes k.parameter?.toList ++ [converter]) ++ ofConverters ks) = _
    rw [parameters_append, parameters_append, parameters_ofTypes, ih, List.filterMap_cons]
    cases k.parameter? <;> rfl

@[simp] theorem problems_ofConverters (ks : List Converter) :
    (ofConverters ks).filterMap problem? = [] := by
  induction ks with
  | nil => rfl
  | cons k ks ih =>
    show ((ofTypes k.parameter?.toList ++ [converter]) ++ ofConverters ks).filterMap problem? = _
    rw [List.filterMap_append, List.filterMap_append, problems_ofTypes, ih]
    rfl

end Finding

/-- The problems noted, in their order. -/
def Notes.problems (n : Notes) : List Diagnostic := n.findings.filterMap Finding.problem?

theorem Notes.mem_problems {n : Notes} {x : Diagnostic} :
    x ∈ n.problems ↔ .problem x ∈ n.findings := by
  unfold problems
  rw [List.mem_filterMap]
  constructor
  · intro h
    obtain ⟨f, hf, hx⟩ := h
    cases f with
    | problem y =>
      cases hx
      exact hf
    | _ => cases hx
  · intro h
    exact ⟨.problem x, h, rfl⟩

/-! ## §2. The end of a search -/

namespace Search

variable {α β : Type}

/-- **How a search ends**, whatever was noted before it: its result, what it has found and
which callbacks it has run. -/
def Ends (x : Search α) (r : Except Fate α) (fs : List Finding) (j : Journal) : Prop :=
  ∀ n : Notes, x.run n = (r, { findings := n.findings ++ fs, journal := n.journal ++ j })

namespace Ends

variable {fs gs : List Finding} {j k : Journal}

theorem pure (a : α) : Ends (pure a) (.ok a) [] {} := by
  intro n
  simp

theorem throw (fate : Fate) : Ends (throw fate : Search α) (.error fate) [] {} := by
  intro n
  simp

theorem note (f : Finding) : Ends (Search.note f) (.ok ()) [f] {} := by
  intro n
  simp [Search.note]

/-- Callbacks have been run. -/
theorem ran (j : Journal) :
    Ends (modify fun n => { n with journal := n.journal ++ j }) (.ok ()) [] j := by
  intro n
  simp

/-- The second search goes on where the first one ended. -/
theorem bind {x : Search α} {f : α → Search β} {a : α} {r : Except Fate β}
    (hx : Ends x (.ok a) fs j) (hf : Ends (f a) r gs k) :
    Ends (x >>= f) r (fs ++ gs) (j ++ k) := by
  intro n
  rw [Run.run_bind_ok (hx n), hf, List.append_assoc, Journal.append_assoc]

/-- A search behind one that has run no callback. -/
theorem after {x : Search α} {f : α → Search β} {a : α} {r : Except Fate β}
    (hx : Ends x (.ok a) fs {}) (hf : Ends (f a) r gs j) : Ends (x >>= f) r (fs ++ gs) j := by
  have h := hx.bind hf
  rwa [Journal.empty_append] at h

/-- Nothing comes after an early end. -/
theorem early {x : Search α} {f : α → Search β} {fate : Fate} (hx : Ends x (.error fate) fs j) :
    Ends (x >>= f) (.error fate) fs j := by
  intro n
  exact Run.run_bind_error (hx n)

/-- A search that only puts its value together in the end. -/
theorem returns {x : Search α} {f : α → Search β} {a : α} {b : β} (hx : Ends x (.ok a) fs j)
    (hf : f a = Pure.pure b) : Ends (x >>= f) (.ok b) fs j := by
  have h : Ends (x >>= f) (.ok b) (fs ++ []) (j ++ {}) := by
    apply hx.bind
    rw [hf]
    exact pure b
  rwa [List.append_nil, Journal.append_empty] at h

/-- A search whose value is put together otherwise, if there is one. -/
theorem map {x : Search α} {r : Except Fate α} (g : α → β) (hx : Ends x r fs j) :
    Ends (x >>= fun a => Pure.pure (g a)) (r.map g) fs j := by
  cases r with
  | ok a => exact hx.returns rfl
  | error fate => exact hx.early

theorem reject (d : Diagnostic) :
    Ends (Search.reject d : Search α) (.error .rejected) [.problem d] {} :=
  (note (.problem d)).after (throw .rejected)

/-- A search that goes on to a rejection. -/
theorem rejects {x : Search α} {f : α → Search β} {a : α} {d : Diagnostic}
    (hx : Ends x (.ok a) fs j) (hf : f a = Search.reject d) :
    Ends (x >>= f) (.error .rejected) (fs ++ [.problem d]) j := by
  have h : Ends (x >>= f) (.error .rejected) (fs ++ [.problem d]) (j ++ {}) := by
    apply hx.bind
    rw [hf]
    exact reject d
  rwa [Journal.append_empty] at h

theorem noteParameter (t : Option Ty) :
    Ends (Search.noteParameter t) (.ok ()) (Finding.ofTypes t.toList) {} := by
  cases t with
  | some t => exact note (.parameter t)
  | none => exact pure ()

theorem noteParameters (ts : List (Option Ty)) :
    Ends (Search.noteParameters ts) (.ok ()) (Finding.ofTypes (ts.filterMap id)) {} := by
  induction ts with
  | nil => exact pure ()
  | cons t ts ih =>
    have h := (noteParameter t).after (f := fun _ => Search.noteParameters ts) ih
    cases t <;> exact h

theorem linkConverters (ks : List Converter) :
    Ends (ks.forM fun k => do
      Search.noteParameter k.parameter?
      Search.note .converter) (.ok ()) (Finding.ofConverters ks) {} := by
  induction ks with
  | nil => exact pure ()
  | cons k ks ih => exact ((noteParameter k.parameter?).after (note .converter)).after ih

end Ends

end Search

end RecordMap
