import RecordMap.Proofs.Conversion.Exact
import RecordMap.Proofs.Text.Numeral

/-!
# Texts as integers

A text casts to an integer type just if it spells an integer that the type holds.  What it
spells outside of the type is reported as an integer, as long as the word of the reader holds
it; everything else is reported as the text it is, white space included
(`Primitive.cast_text_int_iff`).

Both reports are told apart by the numeral alone: the types of the table are narrower than the
word, so whatever a type holds is read.
-/

namespace RecordMap

/-- The integer types are narrower than the word of the reader. -/
theorem IntType.Holds.isWide {J : IntType} {n : Int} (h : J.Holds n) : Text.IsWide n := by
  unfold Text.IsWide Text.wideMin Text.wideMax
  obtain ⟨hlo, hhi⟩ := h
  unfold IntType.lo at hlo
  unfold IntType.hi at hhi
  cases J <;> simp only [IntType.signed, IntType.bits, if_true, Bool.false_eq_true, if_false] at * <;>
    omega

namespace Text

/-- The decimal form of an integer spells it. -/
theorem spells_toString (n : Int) : Spells (toString n).toList n := by
  rw [← ofInteger_eq_toString, ofInteger, String.toList_ofList]
  exact ⟨[], writeInteger n, [], by simp, by simp, by simp, numeral_writeInteger n⟩

/-- Different integers are written differently. -/
theorem toString_int_inj {m n : Int} : toString m = toString n ↔ m = n := by
  constructor
  · intro h
    have hm := spells_toString m
    rw [h] at hm
    exact hm.unique (spells_toString n)
  · intro h
    rw [h]

end Text

namespace Primitive

variable {J : IntType} {t : String} {n : Int}

@[simp] theorem read?_text (t : String) : text.read? (.text t) = some (.text t) := if_pos rfl

theorem cast_int_text (I : IntType) (n : Int) :
    cast (.int I) .text (.int I n) = .ok (some (.text (toString n))) := by
  rw [cast_of_read? _ (read?_int I n), ← Text.ofInteger_eq_toString]
  rfl

/-- A text that spells an integer is cast as that integer is, of whatever type. -/
theorem cast_text_int_of_spells (J : IntType) (h : Text.Spells t.toList n) (hn : Text.IsWide n) :
    cast .text (.int J) (.text t) =
      if J.Holds n then .ok (some (.int J n)) else .error (.outOfRange (toString n) (.int J)) := by
  have hread := Text.readInteger?_eq_some_iff.mpr ⟨Text.spells_iff.mp h, hn⟩
  have hint : Scalar.toInt (.int J) (.text t) = .ok n := by simp only [Scalar.toInt, hread]
  rw [cast_of_read? _ (read?_text t)]
  exact write_int J hint

theorem cast_text_int_of_not_spells (J : IntType)
    (h : ¬∃ n, Text.Spells t.toList n ∧ Text.IsWide n) :
    cast .text (.int J) (.text t) = .error (.parse t (.int J)) := by
  have hread : Text.readInteger? (Text.trim t.toList) = none := by
    rw [Option.eq_none_iff_forall_ne_some]
    intro n hn
    rw [Text.readInteger?_eq_some_iff, ← Text.spells_iff] at hn
    exact h ⟨n, hn⟩
  have hint : Scalar.toInt (.int J) (.text t) = .error (.parse t (.int J)) := by
    simp only [Scalar.toInt, hread]
  rw [cast_of_read? _ (read?_text t)]
  show some <$> (Scalar.toInt (.int J) (.text t) >>= Scalar.narrow J) = _
  rw [hint]
  rfl

/-- **Accepted** are the texts that spell an integer of the type. -/
theorem cast_text_int_eq_ok_iff (J : IntType) (t : String) (out : Option Value) :
    cast .text (.int J) (.text t) = .ok out ↔
      ∃ n, Text.Spells t.toList n ∧ J.Holds n ∧ out = some (.int J n) := by
  by_cases h : ∃ m, Text.Spells t.toList m ∧ Text.IsWide m
  · obtain ⟨m, hm, hwide⟩ := h
    rw [cast_text_int_of_spells J hm hwide]
    constructor
    · intro hcast
      split at hcast
      · rename_i hholds
        injection hcast with hout
        exact ⟨m, hm, hholds, hout.symm⟩
      · cases hcast
    · intro hn
      obtain ⟨n, hn, hholds, rfl⟩ := hn
      rw [hm.unique hn, if_pos hholds]
  · rw [cast_text_int_of_not_spells J h]
    constructor
    · intro hcast
      cases hcast
    · intro hn
      obtain ⟨n, hn, hholds, -⟩ := hn
      exact absurd ⟨n, hn, hholds.isWide⟩ h

/-- **Out of range** is what the reader holds and the type does not. -/
theorem cast_text_int_eq_outOfRange_iff (J : IntType) (t : String) (n : Int) :
    cast .text (.int J) (.text t) = .error (.outOfRange (toString n) (.int J)) ↔
      Text.Spells t.toList n ∧ Text.IsWide n ∧ ¬J.Holds n := by
  by_cases h : ∃ m, Text.Spells t.toList m ∧ Text.IsWide m
  · obtain ⟨m, hm, hwide⟩ := h
    rw [cast_text_int_of_spells J hm hwide]
    constructor
    · intro hcast
      split at hcast
      · cases hcast
      · rename_i hholds
        have hmn : m = n := by
          injection hcast with hfault
          injection hfault with hdigits
          exact Text.toString_int_inj.mp hdigits
        rw [← hmn]
        exact ⟨hm, hwide, hholds⟩
    · intro hn
      rw [hm.unique hn.1, if_neg hn.2.2]
  · rw [cast_text_int_of_not_spells J h]
    constructor
    · intro hcast
      cases hcast
    · intro hn
      exact absurd ⟨n, hn.1, hn.2.1⟩ h

theorem cast_text_int_eq_parse_iff (J : IntType) (t : String) :
    cast .text (.int J) (.text t) = .error (.parse t (.int J)) ↔
      ¬∃ n, Text.Spells t.toList n ∧ Text.IsWide n := by
  constructor
  · intro hcast h
    obtain ⟨n, hn, hwide⟩ := h
    rw [cast_text_int_of_spells J hn hwide] at hcast
    split at hcast <;> cases hcast
  · exact cast_text_int_of_not_spells J

/-- A detour gives a value just if both of its steps do. -/
theorem castThrough_eq_ok_iff {source middle target : Primitive} {v w : Value} :
    castThrough source middle target v = .ok (some w) ↔
      ∃ u, source.cast middle v = .ok (some u) ∧ middle.cast target u = .ok (some w) := by
  constructor
  · intro h
    unfold castThrough at h
    split at h
    · rename_i u hu
      exact ⟨u, hu, h⟩
    · rename_i hnone
      exact absurd h (hnone w)
  · intro h
    obtain ⟨u, hu, hw⟩ := h
    rw [castThrough_of_cast _ hu, hw]

/-- An accepted text comes back as the decimal form of its integer. -/
theorem castThrough_text_int_iff (J : IntType) (t : String) (w : Value) :
    castThrough .text (.int J) .text (.text t) = .ok (some w) ↔
      ∃ n, Text.Spells t.toList n ∧ J.Holds n ∧ w = .text (toString n) := by
  rw [castThrough_eq_ok_iff]
  constructor
  · intro h
    obtain ⟨u, hu, hw⟩ := h
    obtain ⟨n, hn, hholds, hout⟩ := (cast_text_int_eq_ok_iff J t _).mp hu
    cases hout
    rw [cast_int_text] at hw
    injection hw with hw
    injection hw with hw
    exact ⟨n, hn, hholds, hw.symm⟩
  · intro h
    obtain ⟨n, hn, hholds, rfl⟩ := h
    exact ⟨.int J n, (cast_text_int_eq_ok_iff J t _).mpr ⟨n, hn, hholds, rfl⟩, cast_int_text J n⟩

/-- **Texts as integers.**

A text casts to an integer type as `n` just if it is a numeral of `n` between white space, at
most one sign in front of one or more digits, and the type holds `n`.  If the type does not hold
`n` and a signed word of 128 bits does, the cast faults with `n` in decimal.  From every other
text it faults with the text itself, untrimmed.  An accepted text comes back as the decimal form
of its integer. -/
theorem cast_text_int_iff (J : IntType) (t : String) :
    (∀ n, cast .text (.int J) (.text t) = .ok (some (.int J n)) ↔
      Text.Spells t.toList n ∧ J.Holds n) ∧
    (∀ n, cast .text (.int J) (.text t) = .error (.outOfRange (toString n) (.int J)) ↔
      Text.Spells t.toList n ∧ Text.IsWide n ∧ ¬J.Holds n) ∧
    (cast .text (.int J) (.text t) = .error (.parse t (.int J)) ↔
      ¬∃ n, Text.Spells t.toList n ∧ Text.IsWide n) ∧
    (∀ w, castThrough .text (.int J) .text (.text t) = .ok (some w) ↔
      ∃ n, Text.Spells t.toList n ∧ J.Holds n ∧ w = .text (toString n)) := by
  refine ⟨?accepted, cast_text_int_eq_outOfRange_iff J t, cast_text_int_eq_parse_iff J t,
    castThrough_text_int_iff J t⟩
  intro n
  rw [cast_text_int_eq_ok_iff]
  constructor
  · intro h
    obtain ⟨m, hm, hholds, hout⟩ := h
    have hmn : n = m := by simpa using hout
    rw [hmn]
    exact ⟨hm, hholds⟩
  · intro h
    exact ⟨n, h.1, h.2, rfl⟩

-- A sign, leading zeros and white space are read; digits apart are not.
example : cast .text (.int .i8) (.text " -00128 ") = .ok (some (.int .i8 (-128))) := by rfl

example : cast .text (.int .u8) (.text "1 2") = .error (.parse "1 2" (.int .u8)) := by rfl

end Primitive

end RecordMap
