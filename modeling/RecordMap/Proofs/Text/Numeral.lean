import Mathlib.Data.List.Induction
import Mathlib.Data.List.TakeWhile
import Mathlib.Data.Nat.Digits.Defs
import RecordMap.Text.Blank
import RecordMap.Text.Integer

/-!
# Decimal numerals

A numeral is one or more digits behind at most one sign, and stands for a number by
the place value of its digits.  The reader collects the digits of a numeral in a word
of 128 bits, one after the other.  Every step moves the number away from zero, so a
number that the word holds is reached without leaving the word, and the reader accepts
exactly the numerals of these numbers, with any number of leading zeros
(`Text.readInteger?_eq_some_iff`).

A text *spells* a number if it is a numeral between white space; what trimming leaves of
it is the numeral (`Text.spells_iff`).
-/

namespace RecordMap.Text

/-! ## §1. Numerals -/

/-- The number of a digit. -/
def digitValue (c : Char) : Nat := c.toNat - '0'.toNat

/-- **Place value**: the last digit counts once, each one before it ten times as much as
the one behind. -/
def placeValue (ds : List Char) : Nat := Nat.ofDigits 10 (ds.reverse.map digitValue)

/-- One or more ASCII digits. -/
def IsDigits (ds : List Char) : Prop := ds ≠ [] ∧ ∀ c ∈ ds, c.isDigit = true

/-- **The text is a numeral** of the number. -/
inductive Numeral : List Char → Int → Prop where
  | unsigned {ds : List Char} (digits : IsDigits ds) : Numeral ds (placeValue ds)
  | plus {ds : List Char} (digits : IsDigits ds) : Numeral ('+' :: ds) (placeValue ds)
  | minus {ds : List Char} (digits : IsDigits ds) : Numeral ('-' :: ds) (-(placeValue ds : Int))

/-- **The text spells the number**: it is one of its numerals between white space. -/
def Spells (cs : List Char) (n : Int) : Prop :=
  ∃ before core after, cs = before ++ core ++ after ∧ (∀ c ∈ before, isBlank c = true) ∧
    (∀ c ∈ after, isBlank c = true) ∧ Numeral core n

@[simp] theorem placeValue_nil : placeValue [] = 0 := rfl

theorem placeValue_concat (ds : List Char) (c : Char) :
    placeValue (ds ++ [c]) = 10 * placeValue ds + digitValue c := by
  unfold placeValue
  rw [List.reverse_append, List.reverse_singleton, List.singleton_append, List.map_cons,
    Nat.ofDigits_cons]
  omega

theorem placeValue_eq_ofDigitChars (ds : List Char) :
    placeValue ds = Nat.ofDigitChars 10 ds 0 := by
  induction ds using List.reverseRecOn with
  | nil => simp
  | append_singleton ds c ih =>
    rw [placeValue_concat, ih, Nat.ofDigitChars_append]
    simp [Nat.ofDigitChars_cons, digitValue]

/-- A sign is no digit, so no numeral without a sign starts with one. -/
theorem not_isDigits_cons {c : Char} (ds : List Char) (h : c.isDigit = false) :
    ¬IsDigits (c :: ds) := by
  intro hds
  have hc := hds.2 c (by simp)
  simp [h] at hc

theorem numeral_plus_iff {ds : List Char} {n : Int} :
    Numeral ('+' :: ds) n ↔ IsDigits ds ∧ n = placeValue ds := by
  constructor
  · intro h
    cases h with
    | unsigned digits => exact absurd digits (not_isDigits_cons ds (by decide))
    | plus digits => exact ⟨digits, rfl⟩
  · rintro ⟨digits, rfl⟩
    exact .plus digits

theorem numeral_minus_iff {ds : List Char} {n : Int} :
    Numeral ('-' :: ds) n ↔ IsDigits ds ∧ n = -(placeValue ds : Int) := by
  constructor
  · intro h
    cases h with
    | unsigned digits => exact absurd digits (not_isDigits_cons ds (by decide))
    | minus digits => exact ⟨digits, rfl⟩
  · rintro ⟨digits, rfl⟩
    exact .minus digits

theorem numeral_unsigned_iff {cs : List Char} {n : Int} (hminus : ∀ ds, cs ≠ '-' :: ds)
    (hplus : ∀ ds, cs ≠ '+' :: ds) : Numeral cs n ↔ IsDigits cs ∧ n = placeValue cs := by
  constructor
  · intro h
    cases h with
    | unsigned digits => exact ⟨digits, rfl⟩
    | plus digits => exact absurd rfl (hplus _)
    | minus digits => exact absurd rfl (hminus _)
  · rintro ⟨digits, rfl⟩
    exact .unsigned digits

/-- A numeral stands for one number. -/
theorem Numeral.unique {cs : List Char} {m n : Int} (hm : Numeral cs m) (hn : Numeral cs n) :
    m = n := by
  cases hm with
  | plus digits => exact (numeral_plus_iff.mp hn).2.symm
  | minus digits => exact (numeral_minus_iff.mp hn).2.symm
  | unsigned digits =>
    cases hn with
    | unsigned _ => rfl
    | plus _ => exact absurd digits (not_isDigits_cons _ (by decide))
    | minus _ => exact absurd digits (not_isDigits_cons _ (by decide))

/-! ## §2. Reading -/

theorem wide?_eq_some_iff {n m : Int} : wide? n = some m ↔ IsWide n ∧ m = n := by
  unfold wide?
  split <;> simp_all [eq_comm]

/-- A number of digits, on the side of zero where the sign puts it. -/
def signed (negative : Bool) (m : Nat) : Int := if negative then -(m : Int) else m

theorem signed_push (negative : Bool) (m d : Nat) :
    signed negative (10 * m + d) =
      if negative then 10 * signed negative m - (d : Int) else 10 * signed negative m + d := by
  cases negative with
  | true =>
    simp only [signed, if_true]
    omega
  | false => simp [signed]

/-- If the number with one more digit fits the word, so do the one before it and its
tenfold, which are nearer to zero. -/
theorem isWide_of_push {negative : Bool} {m d : Nat} (h : IsWide (signed negative (10 * m + d))) :
    IsWide (signed negative m) ∧ IsWide (10 * signed negative m) := by
  unfold IsWide wideMin wideMax at *
  cases negative with
  | true =>
    simp only [signed, if_true] at *
    omega
  | false =>
    simp only [signed, Bool.false_eq_true, if_false] at *
    omega

/-- **One step of the reader** puts a digit behind, if the word holds what results. -/
theorem pushDigit?_eq_some_iff {negative : Bool} {m : Nat} {c : Char} {n : Int} :
    pushDigit? negative (signed negative m) c = some n ↔
      c.isDigit = true ∧ n = signed negative (10 * m + digitValue c) ∧ IsWide n := by
  unfold pushDigit?
  by_cases hc : c.isDigit = true
  · rw [if_pos hc]
    show ((wide? (10 * signed negative m)).bind fun shifted =>
      wide? (if negative then shifted - (digitValue c : Int) else shifted + digitValue c)) =
        some n ↔ _
    rw [Option.bind_eq_some_iff, signed_push]
    constructor
    · intro h
      obtain ⟨shifted, hshifted, hn⟩ := h
      rw [wide?_eq_some_iff] at hshifted hn
      rw [hshifted.2] at hn
      exact ⟨hc, hn.2, hn.2 ▸ hn.1⟩
    · intro h
      obtain ⟨-, hn, hwide⟩ := h
      have hpushed : IsWide (signed negative (10 * m + digitValue c)) := by
        rw [signed_push, ← hn]
        exact hwide
      refine ⟨10 * signed negative m, ?_, ?_⟩
      · exact wide?_eq_some_iff.mpr ⟨(isWide_of_push hpushed).2, rfl⟩
      · rw [wide?_eq_some_iff, ← hn]
        exact ⟨hwide, rfl⟩
  · simp [hc]

/-- **The digits are collected** just if they are digits and the word holds their number.
The induction takes them from the last one on, as that one is read last. -/
theorem foldlM_pushDigit?_eq_some_iff {negative : Bool} {ds : List Char} {n : Int} :
    ds.foldlM (pushDigit? negative) 0 = some n ↔
      (∀ c ∈ ds, c.isDigit = true) ∧ n = signed negative (placeValue ds) ∧ IsWide n := by
  induction ds using List.reverseRecOn generalizing n with
  | nil =>
    have hzero : signed negative 0 = 0 := by cases negative <;> rfl
    have hwide : IsWide 0 := by decide
    simp only [List.foldlM_nil, placeValue_nil, hzero, Option.pure_def, Option.some.injEq]
    constructor
    · intro h
      subst h
      exact ⟨by simp, rfl, hwide⟩
    · intro h
      exact h.2.1.symm
  | append_singleton ds c ih =>
    rw [List.foldlM_append, Option.bind_eq_bind, Option.bind_eq_some_iff]
    simp only [List.foldlM_cons, List.foldlM_nil, bind_pure, ih, placeValue_concat]
    constructor
    · intro h
      obtain ⟨m, ⟨hds, hm, -⟩, hpush⟩ := h
      rw [hm, pushDigit?_eq_some_iff] at hpush
      refine ⟨?_, hpush.2⟩
      intro d hd
      rcases List.mem_append.mp hd with hd | hd
      · exact hds d hd
      · rw [List.mem_singleton.mp hd]
        exact hpush.1
    · intro h
      obtain ⟨hdigits, hn, hwide⟩ := h
      have hshort : IsWide (signed negative (placeValue ds)) := (isWide_of_push (hn ▸ hwide)).1
      refine ⟨signed negative (placeValue ds), ⟨?_, rfl, hshort⟩, ?_⟩
      · intro d hd
        exact hdigits d (by simp [hd])
      · exact pushDigit?_eq_some_iff.mpr ⟨hdigits c (by simp), hn, hwide⟩

theorem readDigits?_eq_some_iff {negative : Bool} {ds : List Char} {n : Int} :
    readDigits? negative ds = some n ↔
      IsDigits ds ∧ n = signed negative (placeValue ds) ∧ IsWide n := by
  cases ds with
  | nil => simp [readDigits?, IsDigits]
  | cons c cs =>
    show (c :: cs).foldlM (pushDigit? negative) 0 = some n ↔ _
    rw [foldlM_pushDigit?_eq_some_iff]
    simp [IsDigits]

/-- **The reader accepts the numerals** of the numbers that the word holds, and reads
each of them as its number. -/
theorem readInteger?_eq_some_iff {cs : List Char} {n : Int} :
    readInteger? cs = some n ↔ Numeral cs n ∧ IsWide n := by
  unfold readInteger?
  split
  · rw [readDigits?_eq_some_iff, numeral_minus_iff, and_assoc]
    rfl
  · rw [readDigits?_eq_some_iff, numeral_plus_iff, and_assoc]
    rfl
  · rename_i hminus hplus
    rw [readDigits?_eq_some_iff, numeral_unsigned_iff hminus hplus, and_assoc]
    rfl

/-! ## §3. Writing -/

theorem isDigits_writeNatural (n : Nat) : IsDigits (writeNatural n) :=
  ⟨Nat.toDigits_ne_nil, fun _ hc => Nat.isDigit_of_mem_toDigits (by decide) (by decide) hc⟩

theorem placeValue_writeNatural (n : Nat) : placeValue (writeNatural n) = n := by
  rw [placeValue_eq_ofDigitChars]
  exact Nat.ofDigitChars_ten_toDigits

/-- **What is written for an integer** is a numeral of it. -/
theorem numeral_writeInteger (n : Int) : Numeral (writeInteger n) n := by
  have hdigits := isDigits_writeNatural n.natAbs
  have hvalue := placeValue_writeNatural n.natAbs
  unfold writeInteger
  by_cases h : n < 0
  · rw [if_pos h, numeral_minus_iff, hvalue]
    exact ⟨hdigits, by omega⟩
  · have hn : n = placeValue (writeNatural n.natAbs) := by omega
    rw [if_neg h]
    nth_rewrite 2 [hn]
    exact .unsigned hdigits

/-! ## §4. White space around a numeral -/

/-- What trimming takes away is white space. -/
theorem exists_trim (cs : List Char) :
    ∃ before after, cs = before ++ trim cs ++ after ∧ (∀ c ∈ before, isBlank c = true) ∧
      ∀ c ∈ after, isBlank c = true := by
  have hfront := List.takeWhile_append_dropWhile (p := isBlank) (l := cs)
  have hback := List.takeWhile_append_dropWhile (p := isBlank) (l := (cs.dropWhile isBlank).reverse)
  have hrest : cs.dropWhile isBlank =
      trim cs ++ ((cs.dropWhile isBlank).reverse.takeWhile isBlank).reverse := by
    unfold trim
    rw [← List.reverse_append, hback, List.reverse_reverse]
  refine ⟨cs.takeWhile isBlank, ((cs.dropWhile isBlank).reverse.takeWhile isBlank).reverse,
    ?_, ?_, ?_⟩
  · rw [List.append_assoc, ← hrest, hfront]
  · intro c hc
    exact List.mem_takeWhile_imp hc
  · intro c hc
    exact List.mem_takeWhile_imp (List.mem_reverse.mp hc)

/-- A text that starts without white space keeps its start. -/
theorem dropWhile_isBlank {cs rest : List Char} (hcs : ∀ c ∈ cs, isBlank c = false)
    (hne : cs ≠ []) : (cs ++ rest).dropWhile isBlank = cs ++ rest := by
  cases cs with
  | nil => exact absurd rfl hne
  | cons c cs => simp [hcs c (by simp)]

/-- **Trimming** frees a text without white space from the white space around it. -/
theorem trim_append {before core after : List Char} (hbefore : ∀ c ∈ before, isBlank c = true)
    (hafter : ∀ c ∈ after, isBlank c = true) (hcore : ∀ c ∈ core, isBlank c = false)
    (hne : core ≠ []) : trim (before ++ core ++ after) = core := by
  have hfront : (before ++ core ++ after).dropWhile isBlank = core ++ after := by
    rw [List.append_assoc, List.dropWhile_append_of_pos hbefore, dropWhile_isBlank hcore hne]
  have hback : (core ++ after).reverse.dropWhile isBlank = core.reverse := by
    have hblank : ∀ c ∈ after.reverse, isBlank c = true :=
      fun c hc => hafter c (List.mem_reverse.mp hc)
    have hnone : ∀ c ∈ core.reverse, isBlank c = false :=
      fun c hc => hcore c (List.mem_reverse.mp hc)
    have hself : (core.reverse ++ []).dropWhile isBlank = core.reverse ++ [] :=
      dropWhile_isBlank hnone (by simpa using hne)
    rw [List.append_nil] at hself
    rw [List.reverse_append, List.dropWhile_append_of_pos hblank, hself]
  unfold trim
  rw [hfront, hback, List.reverse_reverse]

/-- No range of white space meets the digits. -/
theorem isBlank_of_isDigit {c : Char} (h : c.isDigit = true) : isBlank c = false := by
  have hdigit : 48 ≤ c.toNat ∧ c.toNat ≤ 57 := by
    rw [Char.isDigit, Bool.and_eq_true, decide_eq_true_iff, decide_eq_true_iff] at h
    exact ⟨UInt32.le_iff_toNat_le.mp h.1, UInt32.le_iff_toNat_le.mp h.2⟩
  have hapart : ∀ r ∈ blankRanges, r.2 < 48 ∨ 57 < r.1 := by decide
  rw [isBlank, List.any_eq_false]
  intro r hr
  have hr := hapart r hr
  simp only [Bool.and_eq_true, decide_eq_true_eq]
  omega

/-- A numeral is not empty and has no white space in it. -/
theorem Numeral.solid {cs : List Char} {n : Int} (h : Numeral cs n) :
    (∀ c ∈ cs, isBlank c = false) ∧ cs ≠ [] := by
  have hdigits : ∀ {ds : List Char}, IsDigits ds → ∀ c ∈ ds, isBlank c = false :=
    fun hds c hc => isBlank_of_isDigit (hds.2 c hc)
  cases h with
  | unsigned digits => exact ⟨hdigits digits, digits.1⟩
  | plus digits => exact ⟨List.forall_mem_cons.mpr ⟨by decide, hdigits digits⟩, by simp⟩
  | minus digits => exact ⟨List.forall_mem_cons.mpr ⟨by decide, hdigits digits⟩, by simp⟩

/-- **A text spells a number** just if what trimming leaves is a numeral of it. -/
theorem spells_iff {cs : List Char} {n : Int} : Spells cs n ↔ Numeral (trim cs) n := by
  constructor
  · intro h
    obtain ⟨before, core, after, rfl, hbefore, hafter, hcore⟩ := h
    rw [trim_append hbefore hafter hcore.solid.1 hcore.solid.2]
    exact hcore
  · intro h
    obtain ⟨before, after, hcs, hbefore, hafter⟩ := exists_trim cs
    exact ⟨before, trim cs, after, hcs, hbefore, hafter, h⟩

/-- A text spells one number at most. -/
theorem Spells.unique {cs : List Char} {m n : Int} (hm : Spells cs m) (hn : Spells cs n) :
    m = n :=
  (spells_iff.mp hm).unique (spells_iff.mp hn)

end RecordMap.Text
