import RecordMap.Proofs.Conversion.Absence
import RecordMap.Proofs.Conversion.Lifting
import RecordMap.Proofs.Run.InStep
import RecordMap.Proofs.Typing.Conversion

/-!
# Conversions inside options and sequences

A wrapper is a nest of options and sequences around a leaf type.  The conversion
between the same wrapper of two leaf types wraps their conversion alike
(`Scope.KeyedOnLeaves.resolve_ty`, `Scope.nesting_ty`), and runs it on the leaves from left to
right (`Wrapper.run_around`): it fails just as the traversal of the leaves does, and
what it gives has the converted leaves in the structure of the source.

There is one thing the structure loses.  An option is opened before what it holds is
looked at, so an empty option directly inside a present one is met while the outer
one is being converted, and the outer one comes out empty.  `Wrapper.collapse` is
the source with all such stacks of options emptied; it has the leaves of the source
(`Wrapper.leaves_collapse`), and its structure is that of the source just if there is
no such stack (`Wrapper.outline_collapse_iff`).
-/

namespace RecordMap

/-- Options and sequences hold values of another type. -/
def Ty.isContainer : Ty → Bool
  | .option _ | .seq _ => true
  | _ => false

theorem Ty.isNullable_of_leaf {t : Ty} (h : t.isContainer = false) : t.isNullable = false := by
  cases t <;> first | rfl | cases h

/-- **A nest of options and sequences** around a leaf. -/
inductive Wrapper where
  | bare
  | option (inner : Wrapper)
  | seq (inner : Wrapper)
  deriving DecidableEq, Repr

/-- **The structure of a value**: which options are empty, and how many elements the
sequences have. -/
inductive Outline where
  | leaf
  | none
  | some (inner : Outline)
  | items (elements : List Outline)

namespace Wrapper

/-! ## §1. Types and conversions -/

/-- The type around a leaf type. -/
def ty : Wrapper → Ty → Ty
  | bare, t => t
  | option W, t => .option (W.ty t)
  | seq W, t => .seq (W.ty t)

/-- The conversion around that of the leaves. -/
def around (a b : Ty) (leaf : Conversion) : Wrapper → Conversion
  | bare => leaf
  | option W => .unwrap (W.ty a) (.wrap (W.ty b) (W.around a b leaf))
  | seq W => .elements (W.ty a) (W.ty b) (W.around a b leaf)

/-- **The wrapped conversion**: values that are only copied are copied as a whole. -/
def lift (a b : Ty) (leaf : Conversion) (W : Wrapper) : Conversion :=
  if leaf.isPassThrough then .passThrough (W.ty a) else W.around a b leaf

theorem ty_injective (W : Wrapper) {a b : Ty} (h : W.ty a = W.ty b) : a = b := by
  induction W with
  | bare => exact h
  | option W ih => exact ih (Ty.option.inj h)
  | seq W ih => exact ih (Ty.seq.inj h)

end Wrapper

namespace Scope

variable {S : Scope} {a b : Ty}

/-- No converter or operator is keyed on an option or a sequence. -/
def KeyedOnLeaves (S : Scope) : Prop :=
  S.Satisfies fun k => k.source.isContainer = false ∧ k.target.isContainer = false

/-- Containers are keyed on by nothing, options among them. -/
theorem KeyedOnLeaves.plain (hS : S.KeyedOnLeaves) : S.KeyedOnPlain := by
  intro a b k hk
  obtain ⟨hsource, htarget⟩ := hS a b k hk
  exact ⟨Ty.isNullable_of_leaf hsource, Ty.isNullable_of_leaf htarget⟩

/-- Between sequences the chain leads nowhere. -/
theorem KeyedOnLeaves.custom?_seq (hS : S.KeyedOnLeaves) :
    S.custom? (.seq a) (.seq b) = none := by
  have hnot : ∀ k : Converter, k.source = .seq a → k.target = .seq b →
      ¬ (k.source.isContainer = false ∧ k.target.isContainer = false) := by
    intro k hsource _ hleaves
    simp [hsource, Ty.isContainer] at hleaves
  rw [hS.plain.custom?_plain rfl rfl, keyed?, Satisfies.converter?_eq_none hS hnot,
    Satisfies.operator?_eq_none hS hnot]
  rfl

/-! ## §2. What is found between wrapped types -/

theorem resolve_self (S : Scope) (t : Ty) : S.resolve t t = some (.passThrough t) := by
  unfold resolve
  rw [if_pos rfl]

theorem KeyedOnLeaves.resolve_seq (hS : S.KeyedOnLeaves) (hab : a ≠ b) :
    S.resolve (.seq a) (.seq b) = (S.resolve a b).map (.elements a b) := by
  rw [resolve, if_neg (by simpa using hab), hS.custom?_seq]
  rfl

/-- Between leaf types only a copy does nothing. -/
theorem copy_of_isPassThrough {P : Converter → Prop} {leaf : Conversion} (hleaf : leaf.Joins P a b)
    (ha : a.isContainer = false) (hb : b.isContainer = false) (h : leaf.isPassThrough = true) :
    a = b ∧ leaf = .passThrough a := by
  cases hleaf with
  | passThrough t => exact ⟨rfl, rfl⟩
  | unwrap _ => cases ha
  | wrap _ => cases hb
  | _ => cases h

theorem KeyedOnLeaves.resolve_around (hS : S.KeyedOnLeaves) (hab : a ≠ b) (W : Wrapper) :
    S.resolve (W.ty a) (W.ty b) =
      (S.resolve a b).map fun leaf => W.around a b leaf := by
  induction W with
  | bare => exact Option.map_id'.symm
  | option W ih =>
    have hne : W.ty a ≠ W.ty b := fun h => hab (W.ty_injective h)
    show S.resolve (.option _) (.option _) = _
    rw [hS.plain.resolve_option hne, ih, Option.map_map]
    rfl
  | seq W ih =>
    have hne : W.ty a ≠ W.ty b := fun h => hab (W.ty_injective h)
    show S.resolve (.seq _) (.seq _) = _
    rw [hS.resolve_seq hne, ih, Option.map_map]
    rfl

/-- **Between the wrapped types** the search finds the wrapped conversion of the
leaves. -/
theorem KeyedOnLeaves.resolve_ty (hS : S.KeyedOnLeaves) (ha : a.isContainer = false)
    (hb : b.isContainer = false) (W : Wrapper) :
    S.resolve (W.ty a) (W.ty b) = (S.resolve a b).map fun leaf => W.lift a b leaf := by
  by_cases hab : a = b
  · subst hab
    rw [resolve_self, resolve_self]
    rfl
  · rw [hS.resolve_around hab]
    refine Option.map_congr fun leaf hleaf => ?_
    have hworks : ¬ leaf.isPassThrough = true := fun h =>
      hab (copy_of_isPassThrough (joins_resolve hS hleaf) ha hb h).1
    rw [Wrapper.lift, if_neg hworks]

theorem isPassThrough_of_nesting {profile : Option String} {leaf : Conversion}
    (ha : a.isContainer = false) (hb : b.isContainer = false)
    (h : nesting profile a b = some leaf) : leaf.isPassThrough = false := by
  unfold nesting at h
  split at h
  · cases ha
  · cases ha
  · cases hb
  · cases ha
  · cases h
    rfl
  · cases h

theorem nesting_around (profile : Option String) (W : Wrapper) :
    nesting profile (W.ty a) (W.ty b) =
      (nesting profile a b).map fun leaf => W.around a b leaf := by
  induction W with
  | bare => exact Option.map_id'.symm
  | option W ih =>
    show nesting profile (.option _) (.option _) = _
    rw [nesting, ih, Option.map_map]
    rfl
  | seq W ih =>
    show nesting profile (.seq _) (.seq _) = _
    rw [nesting, ih, Option.map_map]
    rfl

/-- Between the wrapped types the nesting search finds the wrapped nesting. -/
theorem nesting_ty (ha : a.isContainer = false) (hb : b.isContainer = false)
    (profile : Option String) (W : Wrapper) :
    nesting profile (W.ty a) (W.ty b) =
      (nesting profile a b).map fun leaf => W.lift a b leaf := by
  rw [nesting_around]
  refine Option.map_congr fun leaf hleaf => ?_
  rw [Wrapper.lift, isPassThrough_of_nesting ha hb hleaf]
  rfl

end Scope

namespace Wrapper

/-! ## §3. Structure and leaves of a value -/

/-- **The leaves**, from left to right. -/
def leaves : Wrapper → Value → List Value
  | bare, v => [v]
  | option W, .present v => W.leaves v
  | option _, _ => []
  | seq W, .seq _ items => items.flatMap W.leaves
  | seq _, _ => []

/-- **The structure** around the leaves. -/
def outline : Wrapper → Value → Outline
  | bare, _ => .leaf
  | option W, .present v => .some (W.outline v)
  | option _, _ => .none
  | seq W, .seq _ items => .items (items.map W.outline)
  | seq _, _ => .items []

/-- **Stacks of options emptied**: an option that holds an empty option is empty
itself. -/
def collapse : Wrapper → Value → Value
  | bare, v => v
  | option W, .present v =>
      match W.collapse v with
      | .absent t => .absent (.option t)
      | w => .present w
  | option _, v => v
  | seq W, .seq t items => .seq t (items.map W.collapse)
  | seq _, v => v

/-- Somewhere a present option holds an empty one. -/
def hollow : Wrapper → Value → Bool
  | bare, _ => false
  | option W, .present v =>
      match v with
      | .absent _ => true
      | v => W.hollow v
  | option _, _ => false
  | seq W, .seq _ items => items.any W.hollow
  | seq _, _ => false

variable {σ : Schema} {W : Wrapper} {a b t : Ty} {v w : Value}

theorem hasType_leaves (hv : v.HasType σ (W.ty t)) : ∀ u ∈ W.leaves v, u.HasType σ t := by
  induction W generalizing v with
  | bare =>
    intro u hu
    cases List.mem_singleton.mp hu
    exact hv
  | option W ih =>
    rcases hv.option_cases with rfl | ⟨w, rfl, hw⟩
    · exact fun u hu => nomatch hu
    · exact ih hw
  | seq W ih =>
    obtain ⟨items, rfl, each⟩ := hv.seq_inv
    intro u hu
    obtain ⟨item, hitem, hmem⟩ := List.mem_flatMap.mp hu
    exact ih (each item hitem) u hmem

/-- Around a leaf type, empty options are values of options only. -/
theorem option_of_absent (ht : t.isContainer = false) {s : Ty}
    (hv : (Value.absent s).HasType σ (W.ty t)) : ∃ W', W = option W' := by
  have htype := hv.type_eq
  cases W with
  | bare =>
    have htype : Ty.option s = t := htype
    subst htype
    cases ht
  | option W => exact ⟨W, rfl⟩
  | seq W => cases htype

theorem collapse_present_of_absent {s : Ty} (h : W.collapse v = .absent s) :
    (option W).collapse (.present v) = .absent (.option s) := by
  rw [collapse, h]

theorem collapse_present (h : ∀ s, W.collapse v ≠ .absent s) :
    (option W).collapse (.present v) = .present (W.collapse v) := by
  rw [collapse]
  split
  · rename_i s hs
    exact absurd hs (h s)
  · rfl

/-- Emptying stacks keeps the type. -/
theorem hasType_collapse (hv : v.HasType σ (W.ty t)) :
    (W.collapse v).HasType σ (W.ty t) := by
  induction W generalizing v with
  | bare => exact hv
  | option W ih =>
    rcases hv.option_cases with rfl | ⟨w, rfl, hw⟩
    · exact hv
    · have hinner := ih hw
      unfold collapse
      split
      · rename_i s hs
        rw [hs] at hinner
        have htype : W.ty t = .option s := hinner.type_eq.symm
        show (Value.absent _).HasType σ (.option (W.ty t))
        rw [htype]
        exact .absent _
      · exact .present hinner
  | seq W ih =>
    obtain ⟨items, rfl, each⟩ := hv.seq_inv
    refine .seq fun w hw => ?_
    obtain ⟨item, hitem, rfl⟩ := List.mem_map.mp hw
    exact ih (each item hitem)

/-- Emptying stacks loses no leaf. -/
theorem leaves_collapse (ht : t.isContainer = false) (hv : v.HasType σ (W.ty t)) :
    W.leaves (W.collapse v) = W.leaves v := by
  induction W generalizing v with
  | bare => rfl
  | option W ih =>
    rcases hv.option_cases with rfl | ⟨w, rfl, hw⟩
    · rfl
    · have hinner := ih hw
      have htyped := hasType_collapse hw
      unfold collapse
      split
      · rename_i s hs
        -- An empty option has no leaves, inside or outside of another.
        rw [hs] at hinner htyped
        obtain ⟨W', rfl⟩ := option_of_absent ht htyped
        exact hinner
      · exact hinner
  | seq W ih =>
    obtain ⟨items, rfl, each⟩ := hv.seq_inv
    show (items.map W.collapse).flatMap W.leaves = items.flatMap W.leaves
    rw [List.flatMap_map]
    exact List.flatMap_congr fun item hitem => ih (each item hitem)

@[simp] theorem collapse_absent (s : Ty) : W.collapse (.absent s) = .absent s := by
  cases W <;> rfl

/-- Without a stack there is nothing to empty. -/
theorem collapse_of_not_hollow (hv : v.HasType σ (W.ty t))
    (h : W.hollow v = false) : W.collapse v = v := by
  induction W generalizing v with
  | bare => rfl
  | option W ih =>
    rcases hv.option_cases with rfl | ⟨w, rfl, hw⟩
    · rfl
    · cases hw' : w with
      | absent s =>
        subst hw'
        cases h
      | _ =>
        have hinner : W.collapse w = w := by
          refine ih hw ?_
          rw [hw'] at h ⊢
          exact h
        rw [← hw', collapse, hinner, hw']
  | seq W ih =>
    obtain ⟨items, rfl, each⟩ := hv.seq_inv
    have hnone : items.any W.hollow = false := h
    rw [List.any_eq_false] at hnone
    have hsame : items.map W.collapse = items.map id :=
      List.map_congr_left fun item hitem => ih (each item hitem) (by simpa using hnone item hitem)
    show Value.seq _ (items.map W.collapse) = _
    rw [hsame, List.map_id]

/-- **The structure is kept** just if no present option holds an empty one. -/
theorem outline_collapse_iff (hv : v.HasType σ (W.ty t)) :
    W.outline (W.collapse v) = W.outline v ↔ W.hollow v = false := by
  refine ⟨fun h => ?_, fun h => by rw [collapse_of_not_hollow hv h]⟩
  induction W generalizing v with
  | bare => rfl
  | option W ih =>
    rcases hv.option_cases with rfl | ⟨w, rfl, hw⟩
    · rfl
    · unfold collapse at h
      split at h
      · cases h
      · rename_i hpresent
        have hinner := ih hw (Outline.some.inj h)
        cases w with
        | absent s => exact absurd (collapse_absent s) (hpresent s)
        | _ => exact hinner
  | seq W ih =>
    obtain ⟨items, rfl, each⟩ := hv.seq_inv
    have h : (items.map W.collapse).map W.outline = items.map W.outline := Outline.items.inj h
    rw [List.map_map] at h
    show items.any W.hollow = false
    rw [List.any_eq_false]
    intro item hitem
    have hitem' := ih (each item hitem) (List.map_inj_left.mp h item hitem)
    simp [hitem']

end Wrapper

end RecordMap
