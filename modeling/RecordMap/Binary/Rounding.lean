import RecordMap.Binary.Basic

/-!
# Rounding to a floating format

`FloatType.ofRatio` is the number of a format nearest to a given positive
rational, with ties going to the even mantissa; past the greatest number it is
the infinity.  Every operation that produces a floating number goes through it:
reading integers, reading decimals, and passing between the two formats.
-/

namespace RecordMap

-- Powers are the built-in ones, whichever library is in scope.
attribute [local instance (high)] instPowNat

/-- The integer nearest to `num / den`; a half goes to the even neighbour. -/
def roundHalfEven (num den : Nat) : Nat :=
  let n := num / den
  let rest := 2 * (num % den)
  if rest < den then n
  else if den < rest then n + 1
  else if n % 2 = 0 then n else n + 1

/-- The greatest `e` with `2 ^ e ≤ num / den`, for positive `num` and `den`. -/
def floorLog2 (num den : Nat) : Int :=
  let e : Int := (Nat.log2 num : Int) - Nat.log2 den
  if den * 2 ^ e.toNat ≤ num * 2 ^ (-e).toNat then e else e - 1

namespace FloatType

/-- **Correct rounding** of `± num / den` to the format: nearest, ties to even,
overflow to infinity, underflow to a zero that keeps the sign. -/
def ofRatio (t : FloatType) (negative : Bool) (num den : Nat) : Binary :=
  if num = 0 then .finite negative 0 t.minExponent
  else
    let q := max t.minExponent (floorLog2 num den - (t.precision - 1 : Nat))
    let m := roundHalfEven (num * 2 ^ (-q).toNat) (den * 2 ^ q.toNat)
    let (m, q) := if m = 2 ^ t.precision then (2 ^ (t.precision - 1), q + 1) else (m, q)
    if t.maxExponent < q then .infinite negative else .finite negative m q

/-- The number of the format nearest to an integer. -/
def ofInt (t : FloatType) (n : Int) : Binary := t.ofRatio (n < 0) n.natAbs 1

/-- The number of the format nearest to a number of any format. -/
def convert (t : FloatType) : Binary → Binary
  | .nan => .nan
  | .infinite negative => .infinite negative
  | .finite negative m q => t.ofRatio negative (m * 2 ^ q.toNat) (2 ^ (-q).toNat)

end FloatType

end RecordMap
