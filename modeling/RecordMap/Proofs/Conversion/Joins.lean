import RecordMap.Conversion.Run
import RecordMap.Conversion.Scope
import RecordMap.Proofs.Run.Ensures
import RecordMap.Proofs.Typing.Value

/-!
# The shape of conversion trees

`Conversion.Joins P c a b` says that every node of the tree `c` fits its place
between the types `a` and `b`: a step that opens an option stands where an option
arrives, a leaf stands between its own two types, and the converters in the tree
satisfy `P`.  Whatever the scope finds has this shape (`Scope.joins_resolve`,
`Scope.joins_nesting`), so what is proved of trees of the shape holds of every
conversion of every mapping.  The search itself is gone through once, for any
relation between trees and types that its steps keep (`Scope.Built.resolve`).

The shape decides when a conversion can come out absent: only where it opens an
option, which is only at its start (`Conversion.run_eq_none_iff`).
-/

namespace RecordMap

/-! ## §1. Trees between two types -/

/-- **The tree leads from one type to another**, with converters that satisfy
`P`. -/
inductive Conversion.Joins (P : Converter → Prop) : Conversion → Ty → Ty → Prop where
  | passThrough (t : Ty) : Joins P (.passThrough t) t t
  | converter {c : Converter} (holds : P c) : Joins P (.converter c) c.source c.target
  | operator {c : Converter} (holds : P c) : Joins P (.operator c) c.source c.target
  | primitive (a b : Primitive) : Joins P (.primitive a b) (.prim a) (.prim b)
  | fromEnum (e : String) (b : Primitive) : Joins P (.fromEnum e b) (.enum e) (.prim b)
  | toEnum (a : Primitive) (e : String) : Joins P (.toEnum a e) (.prim a) (.enum e)
  | enumToEnum (a b : String) : Joins P (.enumToEnum a b) (.enum a) (.enum b)
  | unwrap {a b : Ty} {next : Conversion} (more : Joins P next a b) :
      Joins P (.unwrap a next) (.option a) b
  | wrap {a b : Ty} {next : Conversion} (more : Joins P next a b) :
      Joins P (.wrap b next) a (.option b)
  /-- Only a converter is put behind the closing of its source. -/
  | wrapSource {a : Ty} {c : Converter} (holds : P c) (takes : c.source = .option a) :
      Joins P (.wrapSource a (.converter c)) a c.target
  | elements {a b : Ty} {next : Conversion} (more : Joins P next a b) :
      Joins P (.elements a b next) (.seq a) (.seq b)
  | nested (a b : String) (profile : Option String) :
      Joins P (.nested ⟨.record a, .record b, profile⟩) (.record a) (.record b)

namespace Scope

variable {S : Scope} {P : Converter → Prop} {a b : Ty} {c : Conversion}

/-- Every converter and operator the scope can find satisfies `P`. -/
def Satisfies (S : Scope) (P : Converter → Prop) : Prop :=
  ∀ a b k, (S.mapping.get? a b = some k ∨ S.defaults.get? a b = some k ∨
    S.operators.get? a b = some k) → P k

/-! ## §2. What a search builds

A search starts from a copy, a converter, an operator or a built-in step, and puts layers
around it.  What holds of all the starts and is kept by the layers holds of all it finds. -/

/-- **A relation that layers keep**: an option opened or closed, a sequence gone through. -/
structure Layered (F : Conversion → Ty → Ty → Prop) : Prop where
  unwrap : ∀ {next a b}, F next a b → F (.unwrap a next) (.option a) b
  wrap : ∀ {next a b}, F next a b → F (.wrap b next) a (.option b)
  elements : ∀ {next a b}, F next a b → F (.elements a b next) (.seq a) (.seq b)

/-- **A relation that everything the scope starts from is in**, and that layers keep. -/
structure Built (S : Scope) (F : Conversion → Ty → Ty → Prop) : Prop extends Layered F where
  copy : ∀ t, F (.passThrough t) t t
  converter : ∀ {a b c}, S.converter? a b = some c → F c a b
  operator : ∀ {a b c}, S.operator? a b = some c → F c a b
  closing : ∀ {a b c}, closing S.converter? a b = some c → F c a b
  leaf : ∀ {a b c}, S.leaf? a b = some c → F c a b

variable {F : Conversion → Ty → Ty → Prop}

/-- The chain past the exact pair puts layers around what the lookup finds. -/
theorem Layered.openings (hF : Layered F) {lookup : Ty → Ty → Option Conversion}
    (hl : ∀ a b c, lookup a b = some c → F c a b) (h : openings lookup a b = some c) : F c a b := by
  unfold Scope.openings at h
  split at h
  -- With options on both sides, open the source, close the target, or do both.
  · rcases Option.or_eq_some_iff.mp h with h | ⟨_, h⟩
    · obtain ⟨next, hnext, rfl⟩ := Option.map_eq_some_iff.mp h
      exact hF.unwrap (hl _ _ _ hnext)
    · rcases Option.or_eq_some_iff.mp h with h | ⟨_, h⟩
      · obtain ⟨next, hnext, rfl⟩ := Option.map_eq_some_iff.mp h
        exact hF.wrap (hl _ _ _ hnext)
      · obtain ⟨next, hnext, rfl⟩ := Option.map_eq_some_iff.mp h
        exact hF.unwrap (hF.wrap (hl _ _ _ hnext))
  · obtain ⟨next, hnext, rfl⟩ := Option.map_eq_some_iff.mp h
    exact hF.unwrap (hl _ _ _ hnext)
  · obtain ⟨next, hnext, rfl⟩ := Option.map_eq_some_iff.mp h
    exact hF.wrap (hl _ _ _ hnext)
  · cases h

theorem Built.custom? (hF : S.Built F) (h : S.custom? a b = some c) : F c a b := by
  unfold Scope.custom? chain at h
  -- The chain of the converters comes first, then that of the operators; only
  -- converters are tried behind a closed source.
  rcases Option.or_eq_some_iff.mp h with h | ⟨_, h⟩
  · rcases Option.or_eq_some_iff.mp h with h | ⟨_, h⟩
    · exact hF.converter h
    · rcases Option.or_eq_some_iff.mp h with h | ⟨_, h⟩
      · exact hF.openings (fun _ _ _ => hF.converter) h
      · exact hF.closing h
  · rcases Option.or_eq_some_iff.mp h with h | ⟨_, h⟩
    · exact hF.operator h
    · rcases Option.or_eq_some_iff.mp h with h | ⟨_, h⟩
      · exact hF.openings (fun _ _ _ => hF.operator) h
      · cases h

/-- **Every conversion found is built by the search.**  The recursion is that of the search: on
the two types together. -/
theorem Built.resolve (hF : S.Built F) {a b : Ty} {c : Conversion} (h : S.resolve a b = some c) :
    F c a b := by
  unfold Scope.resolve at h
  split at h
  · cases h
    subst_vars
    exact hF.copy _
  · rcases Option.or_eq_some_iff.mp h with hcustom | ⟨_, hbuilt⟩
    · exact hF.custom? hcustom
    -- Options first, then sequences; what is left is a leaf.
    · split at hbuilt
      · obtain ⟨next, hnext, rfl⟩ := Option.map_eq_some_iff.mp hbuilt
        exact hF.unwrap (hF.wrap (hF.resolve hnext))
      · obtain ⟨next, hnext, rfl⟩ := Option.map_eq_some_iff.mp hbuilt
        exact hF.unwrap (hF.resolve hnext)
      · obtain ⟨next, hnext, rfl⟩ := Option.map_eq_some_iff.mp hbuilt
        exact hF.wrap (hF.resolve hnext)
      · obtain ⟨next, hnext, rfl⟩ := Option.map_eq_some_iff.mp hbuilt
        exact hF.elements (hF.resolve hnext)
      · exact hF.leaf hbuilt
termination_by sizeOf a + sizeOf b

/-- A nesting conversion is layers around the mapper of two record types. -/
theorem Layered.nesting {profile : Option String} (hF : Layered F)
    (hnested : ∀ r s, F (.nested ⟨.record r, .record s, profile⟩) (.record r) (.record s))
    {a b : Ty} {c : Conversion} (h : nesting profile a b = some c) : F c a b := by
  unfold Scope.nesting at h
  split at h
  · obtain ⟨next, hnext, rfl⟩ := Option.map_eq_some_iff.mp h
    exact hF.unwrap (hF.wrap (hF.nesting hnested hnext))
  · obtain ⟨next, hnext, rfl⟩ := Option.map_eq_some_iff.mp h
    exact hF.unwrap (hF.nesting hnested hnext)
  · obtain ⟨next, hnext, rfl⟩ := Option.map_eq_some_iff.mp h
    exact hF.wrap (hF.nesting hnested hnext)
  · obtain ⟨next, hnext, rfl⟩ := Option.map_eq_some_iff.mp h
    exact hF.elements (hF.nesting hnested hnext)
  · cases h
    exact hnested _ _
  · cases h
termination_by sizeOf a + sizeOf b

/-! ## §3. What is found joins its types -/

theorem converter?_eq_some (hS : S.Satisfies P) (h : S.converter? a b = some c) :
    ∃ k, P k ∧ k.source = a ∧ k.target = b ∧ c = .converter k := by
  obtain ⟨k, hk, rfl⟩ := Option.map_eq_some_iff.mp h
  rcases Option.or_eq_some_iff.mp hk with hk | ⟨_, hk⟩
  · obtain ⟨hsource, htarget⟩ := ConverterTable.source_target_of_get? hk
    exact ⟨k, hS a b k (.inl hk), hsource, htarget, rfl⟩
  · obtain ⟨hsource, htarget⟩ := ConverterTable.source_target_of_get? hk
    exact ⟨k, hS a b k (.inr (.inl hk)), hsource, htarget, rfl⟩

theorem joins_converter? (hS : S.Satisfies P) (h : S.converter? a b = some c) : c.Joins P a b := by
  obtain ⟨k, hk, rfl, rfl, rfl⟩ := converter?_eq_some hS h
  exact .converter hk

theorem joins_operator? (hS : S.Satisfies P) (h : S.operator? a b = some c) : c.Joins P a b := by
  obtain ⟨k, hk, rfl⟩ := Option.map_eq_some_iff.mp h
  obtain ⟨rfl, rfl⟩ := ConverterTable.source_target_of_get? hk
  exact .operator (hS _ _ k (.inr (.inr hk)))

theorem joins_closing (hS : S.Satisfies P) (h : closing S.converter? a b = some c) :
    c.Joins P a b := by
  obtain ⟨wrapped, hw, h⟩ := Option.bind_eq_some_iff.mp h
  obtain ⟨next, hnext, rfl⟩ := Option.map_eq_some_iff.mp h
  obtain ⟨k, hk, hsource, rfl, rfl⟩ := converter?_eq_some hS hnext
  refine .wrapSource hk ?_
  cases a <;> cases hw <;> exact hsource

theorem joins_leaf? (h : S.leaf? a b = some c) : c.Joins P a b := by
  unfold leaf? at h
  split at h
  · split at h <;> cases h
    exact .primitive _ _
  · split at h <;> cases h
    exact .fromEnum _ _
  · split at h <;> cases h
    exact .toEnum _ _
  · cases h
    exact .enumToEnum _ _
  · cases h
    exact .nested _ _ _
  · cases h

theorem layered_joins : Layered (Conversion.Joins P) where
  unwrap := .unwrap
  wrap := .wrap
  elements := .elements

/-- **Every conversion found joins its types.** -/
theorem joins_resolve (hS : S.Satisfies P) {a b : Ty} {c : Conversion}
    (h : S.resolve a b = some c) : c.Joins P a b := by
  have hbuilt : S.Built (Conversion.Joins P) :=
    { layered_joins with
      copy := .passThrough
      converter := joins_converter? hS
      operator := joins_operator? hS
      closing := joins_closing hS
      leaf := joins_leaf? }
  exact hbuilt.resolve h

/-- **Every nesting conversion joins its types**; it has no converters. -/
theorem joins_nesting {profile : Option String} {a b : Ty} {c : Conversion}
    (h : nesting profile a b = some c) : c.Joins P a b :=
  layered_joins.nesting (fun r s => .nested r s profile) h

end Scope

end RecordMap
