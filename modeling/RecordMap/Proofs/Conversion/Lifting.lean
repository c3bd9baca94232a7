import RecordMap.Proofs.Conversion.Joins

/-!
# Conversions of optional types

Where no converter and no operator is keyed on an option, the conversions of a plain pair of
types decide those of its optional variants.  Opening the source, closing the target or both is
put around the conversion that the plain pair has (`Scope.KeyedOnPlain.resolve_lifted`).

Two mechanisms lead there.  The option chain finds an entry for the plain pair from each of its
variants.  Without an entry, the built-in steps open the options and search again, for the plain
pair, and find what that search finds.
-/

namespace RecordMap

namespace Scope

variable {S : Scope} {P : Converter → Prop} {a b : Ty}

/-! ## §1. Entries -/

/-- No converter or operator is keyed on an option. -/
def KeyedOnPlain (S : Scope) : Prop :=
  S.Satisfies fun k => k.source.isNullable = false ∧ k.target.isNullable = false

/-- The converter or operator for exactly these types. -/
def keyed? (S : Scope) (source target : Ty) : Option Conversion :=
  (S.converter? source target).or (S.operator? source target)

theorem Satisfies.converter?_eq_none (hS : S.Satisfies P)
    (h : ∀ k, k.source = a → k.target = b → ¬ P k) : S.converter? a b = none := by
  cases hc : S.converter? a b with
  | none => rfl
  | some c =>
    obtain ⟨k, hk, hsource, htarget, -⟩ := converter?_eq_some hS hc
    exact absurd hk (h k hsource htarget)

theorem Satisfies.operator?_eq_none (hS : S.Satisfies P)
    (h : ∀ k, k.source = a → k.target = b → ¬ P k) : S.operator? a b = none := by
  cases ho : S.operator? a b with
  | none => rfl
  | some c =>
    obtain ⟨k, hk, -⟩ := Option.map_eq_some_iff.mp ho
    obtain ⟨hsource, htarget⟩ := ConverterTable.source_target_of_get? hk
    exact absurd (hS a b k (.inr (.inr hk))) (h k hsource htarget)

theorem KeyedOnPlain.converter? (hS : S.KeyedOnPlain)
    (h : a.isNullable = true ∨ b.isNullable = true) : S.converter? a b = none := by
  refine Satisfies.converter?_eq_none hS ?_
  intro k hsource htarget hplain
  subst hsource htarget
  rcases h with h | h <;> simp [hplain] at h

theorem KeyedOnPlain.operator? (hS : S.KeyedOnPlain)
    (h : a.isNullable = true ∨ b.isNullable = true) : S.operator? a b = none := by
  refine Satisfies.operator?_eq_none hS ?_
  intro k hsource htarget hplain
  subst hsource htarget
  rcases h with h | h <;> simp [hplain] at h

/-! ## §2. The chain -/

/-- The chain has no link past the exact pair, if no side is an option. -/
theorem openings_of_plain (lookup : Ty → Ty → Option Conversion) (ha : a.isNullable = false)
    (hb : b.isNullable = false) : openings lookup a b = none := by
  unfold openings
  split
  · cases ha
  · cases ha
  · cases hb
  · rfl

/-- The source is not put into an option. -/
theorem KeyedOnPlain.closing (hS : S.KeyedOnPlain) (a b : Ty) :
    closing S.converter? a b = none := by
  unfold Scope.closing
  cases hw : a.wrapped? with
  | none => rfl
  | some w =>
    have hnullable : w.isNullable = true := by
      cases a <;> cases hw <;> rfl
    simp [hS.converter? (.inl hnullable)]

/-- Between plain types the chain finds the entry of the pair. -/
theorem KeyedOnPlain.custom?_plain (hS : S.KeyedOnPlain) (ha : a.isNullable = false)
    (hb : b.isNullable = false) : S.custom? a b = S.keyed? a b := by
  unfold custom? chain keyed?
  simp [openings_of_plain _ ha hb, hS.closing]

/-- From an option the chain finds the entry of what it holds. -/
theorem KeyedOnPlain.custom?_unwrap (hS : S.KeyedOnPlain) (hb : b.isNullable = false) :
    S.custom? (.option a) b = (S.keyed? a b).map (.unwrap a) := by
  have hopenings : ∀ lookup, openings lookup (.option a) b = (lookup a b).map (.unwrap a) := by
    intro lookup
    cases b with
    | option => cases hb
    | _ => rfl
  unfold custom? chain keyed?
  simp only [hopenings, hS.closing, hS.converter? (a := .option a) (.inl rfl),
    hS.operator? (a := .option a) (.inl rfl)]
  cases S.converter? a b <;> cases S.operator? a b <;> rfl

/-- To an option the chain finds the entry of what it is to hold. -/
theorem KeyedOnPlain.custom?_wrap (hS : S.KeyedOnPlain) (ha : a.isNullable = false) :
    S.custom? a (.option b) = (S.keyed? a b).map (.wrap b) := by
  have hopenings : ∀ lookup, openings lookup a (.option b) = (lookup a b).map (.wrap b) := by
    intro lookup
    cases a with
    | option => cases ha
    | _ => rfl
  unfold custom? chain keyed?
  simp only [hopenings, hS.closing, hS.converter? (b := .option b) (.inr rfl),
    hS.operator? (b := .option b) (.inr rfl)]
  cases S.converter? a b <;> cases S.operator? a b <;> rfl

/-- Between options the chain leads to the pair they hold, and nowhere else. -/
theorem KeyedOnPlain.custom?_option (hS : S.KeyedOnPlain) :
    S.custom? (.option a) (.option b) =
      (S.keyed? a b).map fun c => .unwrap a (.wrap b c) := by
  have hconverter := fun a b h => hS.converter? (a := a) (b := b) h
  have hoperator := fun a b h => hS.operator? (a := a) (b := b) h
  unfold custom? chain openings keyed?
  simp only [hconverter _ (.option b) (.inr rfl), hconverter (.option a) _ (.inl rfl),
    hoperator _ (.option b) (.inr rfl), hoperator (.option a) _ (.inl rfl), hS.closing]
  cases S.converter? a b <;> cases S.operator? a b <;> rfl

/-! ## §3. The search -/

/-- What is keyed on a pair exactly is found for it. -/
theorem KeyedOnPlain.resolve_of_keyed? (hS : S.KeyedOnPlain) (hab : a ≠ b) {c : Conversion}
    (h : S.keyed? a b = some c) : S.resolve a b = some c := by
  have hplain : a.isNullable = false ∧ b.isNullable = false := by
    by_contra hnot
    have hnullable : a.isNullable = true ∨ b.isNullable = true := by
      cases ha : a.isNullable <;> cases hb : b.isNullable <;> simp_all
    simp [keyed?, hS.converter? hnullable, hS.operator? hnullable] at h
  unfold resolve
  rw [if_neg hab, hS.custom?_plain hplain.1 hplain.2, h]
  rfl

/-- **One law for the variants**: if the chain and the built-in steps both lead to a pair, what
is found is what the search finds for that pair. -/
theorem KeyedOnPlain.or_resolve (hS : S.KeyedOnPlain) (hab : a ≠ b)
    (lift : Conversion → Conversion) :
    ((S.keyed? a b).map lift).or ((S.resolve a b).map lift) = (S.resolve a b).map lift := by
  cases hkeyed : S.keyed? a b with
  | none => rfl
  | some c =>
    rw [hS.resolve_of_keyed? hab hkeyed]
    rfl

theorem KeyedOnPlain.resolve_unwrap (hS : S.KeyedOnPlain) (hb : b.isNullable = false)
    (hab : a ≠ b) : S.resolve (.option a) b = (S.resolve a b).map (.unwrap a) := by
  have hne : Ty.option a ≠ b := by
    intro h
    subst h
    cases hb
  rw [← hS.or_resolve hab, ← hS.custom?_unwrap hb]
  conv_lhs => unfold resolve
  rw [if_neg hne]
  cases b with
  | option => cases hb
  | _ => rfl

theorem KeyedOnPlain.resolve_wrap (hS : S.KeyedOnPlain) (ha : a.isNullable = false)
    (hab : a ≠ b) : S.resolve a (.option b) = (S.resolve a b).map (.wrap b) := by
  have hne : a ≠ Ty.option b := by
    intro h
    subst h
    cases ha
  rw [← hS.or_resolve hab, ← hS.custom?_wrap ha]
  conv_lhs => unfold resolve
  rw [if_neg hne]
  cases a with
  | option => cases ha
  | _ => rfl

theorem KeyedOnPlain.resolve_option (hS : S.KeyedOnPlain) (hab : a ≠ b) :
    S.resolve (.option a) (.option b) =
      (S.resolve a b).map fun c => .unwrap a (.wrap b c) := by
  rw [← hS.or_resolve hab, ← hS.custom?_option, resolve, if_neg (by simpa using hab)]

/-! ## §4. Optional variants -/

/-- **Conversions of optional types** put the opening and the closing of options around the
conversion of the plain types.

Take a scope without converters or operators keyed on an option, and two plain types that
differ.  From the option over the source the search finds the conversion of the plain pair after
opening the option; to the option over the target, the same conversion before closing it; between
the options, both.  For each variant it finds nothing exactly if it finds nothing for the plain
pair. -/
theorem resolve_lifted (S : Scope) (hS : S.KeyedOnPlain) (a b : Ty) (ha : a.isNullable = false)
    (hb : b.isNullable = false) (hab : a ≠ b) :
    (S.resolve (.option a) b = (S.resolve a b).map (.unwrap a) ∧
        S.resolve a (.option b) = (S.resolve a b).map (.wrap b) ∧
        S.resolve (.option a) (.option b) =
          (S.resolve a b).map fun c => .unwrap a (.wrap b c)) ∧
      (S.resolve (.option a) b = none ↔ S.resolve a b = none) ∧
      (S.resolve a (.option b) = none ↔ S.resolve a b = none) ∧
      (S.resolve (.option a) (.option b) = none ↔ S.resolve a b = none) := by
  have hunwrap := hS.resolve_unwrap hb hab
  have hwrap := hS.resolve_wrap ha hab
  have hoption := hS.resolve_option hab
  refine ⟨⟨hunwrap, hwrap, hoption⟩, ?_, ?_, ?_⟩
  · rw [hunwrap, Option.map_eq_none_iff]
  · rw [hwrap, Option.map_eq_none_iff]
  · rw [hoption, Option.map_eq_none_iff]

/-- Writes the code of a stamp. -/
def stampCode : Converter where
  source := .record "Stamp"
  target := .prim .text
  label := some "code"
  body := .plain fun
    | .record _ (code :: _) => code
    | _ => .text ""

/-- A scope with this converter only. -/
def stampScope : Scope := { mapping := { entries := [stampCode] } }

theorem keyedOnPlain_stampScope : stampScope.KeyedOnPlain := by
  intro a b k hk
  rcases hk with hk | hk | hk
  · cases List.mem_singleton.mp (List.mem_of_find?_eq_some hk)
    exact ⟨rfl, rfl⟩
  · cases hk
  · cases hk

/-- The converter serves lists of stamps, and lists that may be missing. -/
theorem resolve_lifted_stamps :
    stampScope.resolve (.seq (.record "Stamp")) (.seq (.prim .text)) =
        some (.elements (.record "Stamp") (.prim .text) (.converter stampCode)) ∧
      stampScope.resolve (.option (.seq (.record "Stamp"))) (.option (.seq (.prim .text))) =
        some (.unwrap (.seq (.record "Stamp")) (.wrap (.seq (.prim .text))
          (.elements (.record "Stamp") (.prim .text) (.converter stampCode)))) := by
  have helements : stampScope.resolve (.seq (.record "Stamp")) (.seq (.prim .text)) =
      some (.elements (.record "Stamp") (.prim .text) (.converter stampCode)) := by
    rw [resolve, if_neg (by decide), keyedOnPlain_stampScope.resolve_of_keyed? (by decide) rfl]
    rfl
  obtain ⟨⟨-, -, hoption⟩, -⟩ := resolve_lifted stampScope keyedOnPlain_stampScope
    (.seq (.record "Stamp")) (.seq (.prim .text)) rfl rfl (by decide)
  rw [hoption, helements]
  exact ⟨rfl, rfl⟩

end Scope

end RecordMap
