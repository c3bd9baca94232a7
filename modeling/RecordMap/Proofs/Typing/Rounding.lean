import Mathlib.Algebra.Order.Field.Power
import Mathlib.Algebra.Order.Field.Rat
import Mathlib.Tactic.Linarith
import Mathlib.Tactic.Positivity
import Mathlib.Tactic.Ring
import RecordMap.Binary.Rounding

/-!
# Rounding gives canonical numbers

A floating format holds a number in one form only, its canonical form.  Rounding
any ratio to a format gives a number in that form (`FloatType.canonical_ofRatio`),
so a conversion into the format does too (`FloatType.canonical_convert`).

The argument is on rationals: `floorLog2` brackets the ratio between two powers
of two, and dividing by the power chosen for the exponent leaves a quotient that
fits the precision, and fills it unless the exponent is the least one.
-/

namespace RecordMap

/-! ## §1. The logarithm of a ratio -/

/-- Shifting whichever side is the smaller compares a ratio with a power of two. -/
theorem shifted_le_iff (num den : Nat) (e : Int) :
    den * 2 ^ e.toNat ≤ num * 2 ^ (-e).toNat ↔ (2 : ℚ) ^ e * den ≤ num := by
  have hpos : (0 : ℚ) < 2 ^ (-e).toNat := by positivity
  have hsplit : (2 : ℚ) ^ e * 2 ^ (-e).toNat = 2 ^ e.toNat := by
    rw [← zpow_natCast, ← zpow_natCast, ← zpow_add₀ (by norm_num)]
    congr 1
    omega
  calc den * 2 ^ e.toNat ≤ num * 2 ^ (-e).toNat
      ↔ (den : ℚ) * 2 ^ e.toNat ≤ num * 2 ^ (-e).toNat := by exact_mod_cast Iff.rfl
    _ ↔ (2 : ℚ) ^ e * den * 2 ^ (-e).toNat ≤ num * 2 ^ (-e).toNat := by
      rw [← hsplit]
      ring_nf
    _ ↔ (2 : ℚ) ^ e * den ≤ num := by rw [mul_le_mul_iff_left₀ hpos]

theorem two_zpow_log2_le {n : Nat} (h : n ≠ 0) : (2 : ℚ) ^ (Nat.log2 n : Int) ≤ n := by
  rw [zpow_natCast]
  exact_mod_cast Nat.log2_self_le h

theorem lt_two_zpow_log2 (n : Nat) : (n : ℚ) < 2 ^ ((Nat.log2 n : Int) + 1) := by
  have h : n < 2 ^ (Nat.log2 n + 1) := Nat.lt_log2_self
  have hcast : ((Nat.log2 n : Int) + 1) = ((Nat.log2 n + 1 : Nat) : Int) := by push_cast; rfl
  rw [hcast, zpow_natCast]
  exact_mod_cast h

/-- **The logarithm** lies below the ratio by less than a factor of two. -/
theorem floorLog2_spec {num den : Nat} (hnum : num ≠ 0) (hden : den ≠ 0) :
    (2 : ℚ) ^ floorLog2 num den * den ≤ num ∧
      (num : ℚ) < 2 ^ (floorLog2 num den + 1) * den := by
  have hle := two_zpow_log2_le hnum
  have hlt := lt_two_zpow_log2 num
  have hdle := two_zpow_log2_le hden
  have hdlt := lt_two_zpow_log2 den
  unfold floorLog2
  -- From here on the logarithms are any two integers with these brackets.
  generalize (Nat.log2 num : Int) = a at *
  generalize (Nat.log2 den : Int) = b at *
  have hbelow : (2 : ℚ) ^ (a - b - 1) * den ≤ num := by
    calc (2 : ℚ) ^ (a - b - 1) * den ≤ 2 ^ (a - b - 1) * 2 ^ (b + 1) := by gcongr
      _ = 2 ^ a := by
        rw [← zpow_add₀ (by norm_num)]
        congr 1
        omega
      _ ≤ num := hle
  have habove : (num : ℚ) < 2 ^ (a - b + 1) * den := by
    calc (num : ℚ) < 2 ^ (a + 1) := hlt
      _ = 2 ^ (a - b + 1) * 2 ^ b := by
        rw [← zpow_add₀ (by norm_num)]
        congr 1
        omega
      _ ≤ 2 ^ (a - b + 1) * den := by gcongr
  -- The difference of the logarithms is right, or it is one too high.
  dsimp only
  split
  · rename_i h
    exact ⟨(shifted_le_iff num den _).mp h, habove⟩
  · rename_i h
    have hstrict := mt (shifted_le_iff num den (a - b)).mpr h
    rw [sub_add_cancel]
    exact ⟨hbelow, not_le.mp hstrict⟩

/-! ## §2. The mantissa -/

theorem div_le_roundHalfEven (num den : Nat) : num / den ≤ roundHalfEven num den := by
  unfold roundHalfEven
  dsimp only
  split
  · exact Nat.le_refl _
  · split
    · omega
    · split <;> omega

theorem roundHalfEven_le (num den : Nat) : roundHalfEven num den ≤ num / den + 1 := by
  unfold roundHalfEven
  dsimp only
  split
  · omega
  · split
    · omega
    · split <;> omega

namespace FloatType

/-- The exponent before a carry of the mantissa. -/
def rawExponent (t : FloatType) (num den : Nat) : Int :=
  max t.minExponent (floorLog2 num den - (t.precision - 1 : Nat))

theorem precision_pos (t : FloatType) : 0 < t.precision := by cases t <;> decide

/-- The rounded mantissa fits the precision, but for a carry. -/
theorem mantissa_le (t : FloatType) {num den : Nat} (hnum : num ≠ 0) (hden : den ≠ 0) :
    roundHalfEven (num * 2 ^ (-t.rawExponent num den).toNat)
      (den * 2 ^ (t.rawExponent num den).toNat) ≤ 2 ^ t.precision := by
  set q := t.rawExponent num den with hq
  have hspec := (floorLog2_spec hnum hden).2
  have hprec := t.precision_pos
  -- The exponent is high enough for the quotient to fit.
  have hexp : floorLog2 num den + 1 ≤ q + t.precision := by
    have : floorLog2 num den - (t.precision - 1 : Nat) ≤ q := le_max_right _ _
    omega
  have hlt : (num : ℚ) < 2 ^ (q + t.precision) * den :=
    hspec.trans_le (by gcongr; norm_num)
  have hshift : num * 2 ^ (-q).toNat < den * 2 ^ q.toNat * 2 ^ t.precision := by
    have hstep : (num : ℚ) < 2 ^ q * ((2 ^ t.precision * den : Nat) : ℚ) := by
      rw [zpow_add₀ (by norm_num), zpow_natCast] at hlt
      push_cast
      linarith
    have := mt (shifted_le_iff num (2 ^ t.precision * den) q).mp (not_le.mpr hstep)
    have hlt' := not_le.mp this
    calc num * 2 ^ (-q).toNat < 2 ^ t.precision * den * 2 ^ q.toNat := hlt'
      _ = den * 2 ^ q.toNat * 2 ^ t.precision := by ring
  have hdiv := Nat.div_lt_of_lt_mul hshift
  have := roundHalfEven_le (num * 2 ^ (-q).toNat) (den * 2 ^ q.toNat)
  omega

/-- The rounded mantissa fills the precision, unless the exponent is the least. -/
theorem le_mantissa (t : FloatType) {num den : Nat} (hnum : num ≠ 0) (hden : den ≠ 0)
    (h : t.rawExponent num den ≠ t.minExponent) :
    2 ^ (t.precision - 1) ≤
      roundHalfEven (num * 2 ^ (-t.rawExponent num den).toNat)
        (den * 2 ^ (t.rawExponent num den).toNat) := by
  -- Above the least exponent it is the logarithm that decides.
  have hq : t.rawExponent num den = floorLog2 num den - (t.precision - 1 : Nat) := by
    unfold rawExponent at h ⊢
    omega
  set q := t.rawExponent num den
  have hspec := (floorLog2_spec hnum hden).1
  have hle : (2 : ℚ) ^ q * ((2 ^ (t.precision - 1) * den : Nat) : ℚ) ≤ num := by
    have hsum : floorLog2 num den = q + (t.precision - 1 : Nat) := by omega
    rw [hsum, zpow_add₀ (by norm_num), zpow_natCast] at hspec
    push_cast
    linarith
  have hshift := (shifted_le_iff num _ q).mpr hle
  have hpos : 0 < den * 2 ^ q.toNat := by positivity
  refine le_trans ?_ (div_le_roundHalfEven _ _)
  rw [Nat.le_div_iff_mul_le hpos]
  calc 2 ^ (t.precision - 1) * (den * 2 ^ q.toNat)
      = 2 ^ (t.precision - 1) * den * 2 ^ q.toNat := by ring
    _ ≤ num * 2 ^ (-q).toNat := hshift

/-! ## §3. Canonical forms -/

theorem canonical_signed_zero (t : FloatType) (negative : Bool) :
    t.Canonical (.finite negative 0 t.minExponent) := by
  cases t <;> simp [Canonical, precision, minExponent, maxExponent]

/-- **Rounding gives a canonical number.** -/
theorem canonical_ofRatio (t : FloatType) (negative : Bool) (num : Nat) {den : Nat}
    (hden : den ≠ 0) : t.Canonical (t.ofRatio negative num den) := by
  unfold ofRatio
  split
  · exact t.canonical_signed_zero negative
  · rename_i hnum
    have hle := t.mantissa_le hnum hden
    have hge := t.le_mantissa hnum hden
    have hmin : t.minExponent ≤ t.rawExponent num den := le_max_left _ _
    have hprec := t.precision_pos
    unfold rawExponent at hle hge hmin
    dsimp only
    generalize max t.minExponent (floorLog2 num den - (t.precision - 1 : Nat)) = q at *
    generalize roundHalfEven (num * 2 ^ (-q).toNat) (den * 2 ^ q.toNat) = m at *
    by_cases hcarry : m = 2 ^ t.precision
    -- A carry leaves the smallest full mantissa, at the next exponent.
    · have hhalf : 2 ^ (t.precision - 1) < 2 ^ t.precision :=
        Nat.pow_lt_pow_right (by decide) (by omega)
      rw [if_pos hcarry]
      dsimp only
      split
      · trivial
      · exact ⟨hhalf, by omega, by omega, .inl (Nat.le_refl _)⟩
    · rw [if_neg hcarry]
      dsimp only
      split
      · trivial
      · refine ⟨lt_of_le_of_ne hle hcarry, hmin, by omega, ?_⟩
        by_cases hq : q = t.minExponent
        · exact .inr hq
        · exact .inl (hge hq)

/-- **Conversion into a format gives a canonical number.** -/
theorem canonical_convert (t : FloatType) (x : Binary) : t.Canonical (t.convert x) := by
  cases x with
  | nan => trivial
  | infinite negative => trivial
  | finite negative m q => exact t.canonical_ofRatio negative _ (by positivity)

end FloatType

end RecordMap
