import RecordMap.Scalar

/-!
# Casts between integers, characters and truth values are exact

Integers, characters and truth values pass through the conversion table as
integers that no width limits, so the only thing that can be lost between two of
these types is a value the target does not hold.  A cast therefore gives the same
integer or reports the integer it could not place, and a detour over a type that
holds the integer changes nothing.

The lemmas of §2 compute each kind of cast once for all integer types.  The main
statement is `Primitive.casts_exact`.
-/

namespace RecordMap

/-! ## §1. Decimal digits and code points -/

/-- The text of an integer is its decimal form. -/
theorem Text.ofInteger_eq_toString (n : Int) : Text.ofInteger n = toString n := by
  unfold Text.ofInteger Text.writeInteger Text.writeNatural
  cases n with
  | ofNat m => rfl
  | negSucc m =>
    rw [if_pos (Int.negSucc_lt_zero m)]
    show _ = "-" ++ Nat.repr (m + 1)
    rw [← String.toList_inj]
    simp [Nat.repr]

/-- The integers that are scalar values of the character standard: the code
points without the surrogates. -/
def IsScalarValue (n : Int) : Prop :=
  0 ≤ n ∧ n < 0xD800 ∨ 0xE000 ≤ n ∧ n ≤ 0x10FFFF

instance (n : Int) : Decidable (IsScalarValue n) := inferInstanceAs (Decidable (_ ∨ _))

theorem isScalarValue_iff (n : Int) : IsScalarValue n ↔ 0 ≤ n ∧ n.toNat.isValidChar := by
  unfold IsScalarValue Nat.isValidChar
  omega

theorem isScalarValue_toNat (c : Char) : IsScalarValue c.toNat :=
  (isScalarValue_iff _).mpr ⟨Int.natCast_nonneg _, c.valid⟩

theorem toNat_ofNat_of_isValidChar {n : Nat} (h : n.isValidChar) : (Char.ofNat n).toNat = n := by
  unfold Char.ofNat
  rw [dif_pos h]
  rfl

namespace Primitive

variable {I J K : IntType} {n : Int}

/-! ## §2. One equation for each kind of cast -/

theorem cast_of_read? {source : Primitive} {v : Value} {x : Scalar} (target : Primitive)
    (h : source.read? v = some x) : source.cast target v = some <$> x.write target := by
  unfold cast
  rw [h]

@[simp] theorem read?_int (I : IntType) (n : Int) : (int I).read? (.int I n) = some (.int n) :=
  if_pos rfl

@[simp] theorem read?_char (c : Char) : char.read? (.char c) = some (.char c) := if_pos rfl

@[simp] theorem read?_bool (b : Bool) : bool.read? (.bool b) = some (.bool b) := if_pos rfl

/-- Everything that is read as an integer is written to an integer type alike. -/
theorem write_int (J : IntType) {x : Scalar} (h : x.toInt (.int J) = .ok n) :
    some <$> x.write (.int J) =
      if J.Holds n then .ok (some (.int J n)) else .error (.outOfRange (toString n) (.int J)) := by
  show some <$> (x.toInt (.int J) >>= Scalar.narrow J) = _
  rw [h]
  show some <$> Scalar.narrow J n = _
  unfold Scalar.narrow
  rw [Text.ofInteger_eq_toString]
  split <;> rfl

theorem cast_int_int (I J : IntType) (n : Int) :
    cast (.int I) (.int J) (.int I n) =
      if J.Holds n then .ok (some (.int J n)) else .error (.outOfRange (toString n) (.int J)) :=
  (cast_of_read? _ (read?_int I n)).trans (write_int J rfl)

theorem cast_char_int (J : IntType) (c : Char) :
    cast .char (.int J) (.char c) =
      if J.Holds c.toNat then .ok (some (.int J c.toNat))
      else .error (.outOfRange (toString c.toNat) (.int J)) :=
  (cast_of_read? _ (read?_char c)).trans (write_int J rfl)

theorem cast_int_char (I : IntType) (n : Int) :
    cast (.int I) .char (.int I n) =
      if IsScalarValue n then .ok (some (.char (Char.ofNat n.toNat)))
      else .error (.outOfRange (toString n) .char) := by
  rw [cast_of_read? _ (read?_int I n)]
  show some <$> Value.char <$> Scalar.toChar .char (.int n) = _
  by_cases h : IsScalarValue n
  · have hchar : Scalar.toChar .char (.int n) = .ok (Char.ofNat n.toNat) :=
      if_pos ((isScalarValue_iff n).mp h)
    rw [hchar, if_pos h]
    rfl
  · have hchar : Scalar.toChar .char (.int n) = .error (.outOfRange (Text.ofInteger n) .char) :=
      if_neg (mt (isScalarValue_iff n).mpr h)
    rw [hchar, if_neg h, Text.ofInteger_eq_toString]
    rfl

theorem cast_bool_int (J : IntType) (b : Bool) :
    cast .bool (.int J) (.bool b) = .ok (some (.int J (if b then 1 else 0))) := by
  have hholds : J.Holds (if b then 1 else 0) := by cases b <;> cases J <;> decide
  rw [cast_of_read? _ (read?_bool b), write_int J rfl, if_pos hholds]

theorem cast_int_bool (I : IntType) (n : Int) :
    cast (.int I) .bool (.int I n) = .ok (some (.bool (n != 0))) :=
  cast_of_read? _ (read?_int I n)

/-- The code point of a character leads back to it, and to no other character. -/
theorem cast_int_char_eq_iff (c : Char) :
    cast (.int I) .char (.int I n) = .ok (some (.char c)) ↔ (c.toNat : Int) = n := by
  rw [cast_int_char]
  constructor
  · intro h
    split at h
    · rename_i hn
      obtain ⟨hnonneg, hvalid⟩ := (isScalarValue_iff n).mp hn
      have hc : Char.ofNat n.toNat = c := by injection h with h; injection h with h; injection h
      rw [← hc, toNat_ofNat_of_isValidChar hvalid]
      exact Int.toNat_of_nonneg hnonneg
    · cases h
  · rintro rfl
    rw [if_pos (isScalarValue_toNat c), Int.toNat_natCast, Char.ofNat_toNat]

/-! ## §3. Exactness -/

/-- A cast in two steps; a fault of the first, or nothing, is the result. -/
def castThrough (source middle target : Primitive) (v : Value) :
    Except ScalarFault (Option Value) :=
  match source.cast middle v with
  | .ok (some w) => middle.cast target w
  | result => result

theorem castThrough_of_cast {source middle : Primitive} (target : Primitive) {v w : Value}
    (h : source.cast middle v = .ok (some w)) :
    castThrough source middle target v = middle.cast target w := by
  unfold castThrough
  rw [h]

theorem castThrough_int (h : K.Holds n) :
    castThrough (.int I) (.int K) (.int J) (.int I n) = cast (.int I) (.int J) (.int I n) := by
  have hfirst : cast (.int I) (.int K) (.int I n) = .ok (some (.int K n)) := by
    rw [cast_int_int, if_pos h]
  rw [castThrough_of_cast _ hfirst, cast_int_int, cast_int_int]

theorem castThrough_char (c : Char) (h : J.Holds c.toNat) :
    castThrough .char (.int J) .char (.char c) = .ok (some (.char c)) := by
  have hfirst : cast .char (.int J) (.char c) = .ok (some (.int J c.toNat)) := by
    rw [cast_char_int, if_pos h]
  rw [castThrough_of_cast _ hfirst, cast_int_char_eq_iff]

theorem castThrough_bool (J : IntType) (b : Bool) :
    castThrough .bool (.int J) .bool (.bool b) = .ok (some (.bool b)) := by
  rw [castThrough_of_cast _ (cast_bool_int J b), cast_int_bool]
  cases b <;> rfl

/-- A choice between a result and a fault is the result just if the condition
holds. -/
theorem ite_eq_ok_iff {p : Prop} [Decidable p] {v : Value} {f : ScalarFault} :
    ((if p then .ok (some v) else .error f : Except ScalarFault (Option Value)) = .ok (some v) ↔
        p) ∧
      ((if p then .ok (some v) else .error f : Except ScalarFault (Option Value)) = .error f ↔
        ¬p) := by
  by_cases h : p <;> simp [h]

/-- **Casts between integers, characters and truth values are exact.**

An integer of any integer type casts to any other as the same integer just if
that type holds it, and otherwise faults with the integer in decimal and the
target; a detour over a third type that holds it makes no difference.  A
character casts to an integer type just if that type holds its code point, and
comes back from there as itself.  An integer casts to a character just if it is a
scalar value, and then to the one with this code point.  A truth value comes back
from every integer type as itself, and an integer is true just if it is not
zero. -/
theorem casts_exact (I J : IntType) (n : Int) :
    ((cast (.int I) (.int J) (.int I n) = .ok (some (.int J n)) ↔ J.Holds n) ∧
      (cast (.int I) (.int J) (.int I n) = .error (.outOfRange (toString n) (.int J)) ↔
        ¬J.Holds n)) ∧
    (∀ K : IntType, K.Holds n →
      castThrough (.int I) (.int K) (.int J) (.int I n) =
        cast (.int I) (.int J) (.int I n)) ∧
    (∀ c : Char,
      (cast .char (.int J) (.char c) = .ok (some (.int J c.toNat)) ↔ J.Holds c.toNat) ∧
      (cast .char (.int J) (.char c) = .error (.outOfRange (toString c.toNat) (.int J)) ↔
        ¬J.Holds c.toNat) ∧
      (J.Holds c.toNat →
        castThrough .char (.int J) .char (.char c) = .ok (some (.char c)))) ∧
    ((∀ c : Char,
        cast (.int J) .char (.int J n) = .ok (some (.char c)) ↔ (c.toNat : Int) = n) ∧
      ((∃ c : Char, cast (.int J) .char (.int J n) = .ok (some (.char c))) ↔
        IsScalarValue n) ∧
      (cast (.int J) .char (.int J n) = .error (.outOfRange (toString n) .char) ↔
        ¬IsScalarValue n)) ∧
    (∀ b : Bool, castThrough .bool (.int J) .bool (.bool b) = .ok (some (.bool b))) ∧
    (cast (.int J) .bool (.int J n) = .ok (some (.bool true)) ↔ n ≠ 0) ∧
    (cast (.int J) .bool (.int J n) = .ok (some (.bool false)) ↔ n = 0) := by
  refine ⟨?integers, fun K => castThrough_int, fun c => ?characters, ⟨cast_int_char_eq_iff, ?_, ?_⟩,
    castThrough_bool J, ?_, ?_⟩
  case integers =>
    rw [cast_int_int]
    exact ite_eq_ok_iff
  case characters =>
    rw [cast_char_int]
    exact ⟨ite_eq_ok_iff.1, ite_eq_ok_iff.2, castThrough_char c⟩
  · constructor
    · rintro ⟨c, hc⟩
      rw [← (cast_int_char_eq_iff c).mp hc]
      exact isScalarValue_toNat c
    · intro h
      exact ⟨Char.ofNat n.toNat, by rw [cast_int_char, if_pos h]⟩
  · rw [cast_int_char]
    exact ite_eq_ok_iff.2
  · rw [cast_int_bool]
    simp
  · rw [cast_int_bool]
    simp

/-- The greatest signed byte still fits, over a wider type as well, and comes
back from there as the same character. -/
theorem casts_exact_at_byte :
    IntType.u16.Holds 127 ∧ IntType.i8.Holds ('\x7f'.toNat : Int) ∧
      castThrough (.int .i64) (.int .u16) (.int .i8) (.int .i64 127) =
        cast (.int .i64) (.int .i8) (.int .i64 127) ∧
      castThrough .char (.int .i8) .char (.char '\x7f') = .ok (some (.char '\x7f')) := by
  have hu : IntType.u16.Holds 127 := by decide
  have hc : IntType.i8.Holds ('\x7f'.toNat : Int) := by decide
  have h := casts_exact .i64 .i8 127
  exact ⟨hu, hc, h.2.1 .u16 hu, (h.2.2.1 '\x7f').2.2 hc⟩

end Primitive

end RecordMap
