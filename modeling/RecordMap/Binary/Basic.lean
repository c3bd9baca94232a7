import RecordMap.Primitive

/-!
# Binary floating numbers

A floating number is a case of its own for not-a-number and the infinities, and
otherwise a sign, a mantissa `m` and an exponent `q`, standing for `± m · 2 ^ q`.
Numbers are kept in this exact form; nothing here computes with machine floats.

A finite number is *canonical* in a format when its mantissa uses the full
precision or its exponent is the least one.  Each value of a format, signed
zeros included, has exactly one canonical form, so equality of the forms is
equality of the values.  `FloatType.ofBits` and `FloatType.toBits` go between
the canonical form and the interchange encoding.
-/

namespace RecordMap

-- Powers are the built-in ones, whichever library is in scope.
attribute [local instance (high)] instPowNat

/-- A binary floating number, in exact form. -/
inductive Binary where
  /-- Not a number; all encodings of it are one. -/
  | nan
  /-- An infinity. -/
  | infinite (negative : Bool)
  /-- The number `± mantissa · 2 ^ exponent`; zero keeps its sign. -/
  | finite (negative : Bool) (mantissa : Nat) (exponent : Int)
  deriving DecidableEq, Repr

/-! ## §1. Formats -/

namespace FloatType

/-- Bits of a full mantissa, the leading one included. -/
def precision : FloatType → Nat
  | .f32 => 24
  | .f64 => 53

/-- The least exponent of a mantissa. -/
def minExponent : FloatType → Int
  | .f32 => -149
  | .f64 => -1074

/-- The greatest exponent of a mantissa. -/
def maxExponent : FloatType → Int
  | .f32 => 104
  | .f64 => 971

/-- Width of the encoding. -/
def bits : FloatType → Nat
  | .f32 => 32
  | .f64 => 64

/-- `x` is the one form of a value of the format. -/
def Canonical (t : FloatType) : Binary → Prop
  | .nan | .infinite _ => True
  | .finite _ m q =>
      m < 2 ^ t.precision ∧ t.minExponent ≤ q ∧ q ≤ t.maxExponent ∧
        (2 ^ (t.precision - 1) ≤ m ∨ q = t.minExponent)

instance (t : FloatType) (x : Binary) : Decidable (t.Canonical x) := by
  cases x <;> unfold Canonical <;> infer_instance

/-- Positive zero. -/
def zero (t : FloatType) : Binary := .finite false 0 t.minExponent

/-- One. -/
def one (t : FloatType) : Binary :=
  .finite false (2 ^ (t.precision - 1)) (1 - (t.precision : Int))

theorem canonical_zero (t : FloatType) : t.Canonical t.zero := by cases t <;> decide

/-! ## §2. The interchange encoding -/

/-- Number of fraction bits in the encoding. -/
def fractionBits (t : FloatType) : Nat := t.precision - 1

/-- The exponent field of the infinities and of not-a-number. -/
def topField (t : FloatType) : Nat := 2 ^ (t.bits - t.precision) - 1

/-- Decode an encoding: sign, exponent field, fraction. -/
def ofBits (t : FloatType) (word : Nat) : Binary :=
  let fraction := word % 2 ^ t.fractionBits
  let field := word / 2 ^ t.fractionBits % 2 ^ (t.bits - t.precision)
  let negative := word / 2 ^ (t.bits - 1) % 2 == 1
  if field = t.topField then
    if fraction = 0 then .infinite negative else .nan
  else if field = 0 then
    .finite negative fraction t.minExponent
  else
    .finite negative (2 ^ t.fractionBits + fraction) (t.minExponent + field - 1)

/-- The encoding of a canonical number; not-a-number gets its quiet form. -/
def toBits (t : FloatType) (x : Binary) : Nat :=
  let sign (negative : Bool) := if negative then 2 ^ (t.bits - 1) else 0
  match x with
  | .nan => t.topField * 2 ^ t.fractionBits + 2 ^ (t.fractionBits - 1)
  | .infinite negative => sign negative + t.topField * 2 ^ t.fractionBits
  | .finite negative m q =>
      if m < 2 ^ t.fractionBits then sign negative + m
      else
        sign negative + (q - t.minExponent + 1).toNat * 2 ^ t.fractionBits
          + (m - 2 ^ t.fractionBits)

end FloatType

/-! ## §3. Queries -/

namespace Binary

/-- Neither infinite nor not-a-number. -/
def isFinite : Binary → Bool
  | .finite .. => true
  | _ => false

/-- One of the two zeros. -/
def isZero : Binary → Bool
  | .finite _ m _ => m == 0
  | _ => false

/-- Attach a sign to a magnitude. -/
def signed (negative : Bool) (n : Nat) : Int :=
  if negative then -(n : Int) else n

/-- **Truncation** of a finite number towards zero. -/
def truncate? : Binary → Option Int
  | .finite negative m q =>
      some (signed negative (if 0 ≤ q then m * 2 ^ q.toNat else m / 2 ^ (-q).toNat))
  | _ => none

/-- `|x| < 2 ^ k`, for a finite number. -/
def magnitudeBelow (k : Nat) : Binary → Bool
  | .finite _ m q => m * 2 ^ q.toNat < 2 ^ k * 2 ^ (-q).toNat
  | _ => false

end Binary

end RecordMap
