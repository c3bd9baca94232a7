import RecordMap.Binary.Basic

/-!
# Shortest decimals

The decimal text of a floating number uses the fewest digits that still single
the number out among those of its format.  A decimal singles out `m · 2 ^ q`
when it lies in the interval of reals that round to it: from halfway to the
number below to halfway to the number above, the ends included when `m` is even.

The search tries 1, 2, 3, … digits.  On the grid of decimals with that many
digits it looks at the two neighbours of the number; the first grid with a hit
wins, of two hits the closer one, and of two equally close ones the upper.
-/

namespace RecordMap

-- Powers are the built-in ones, whichever library is in scope.
attribute [local instance (high)] instPowNat

/-- The decimal `digits · 10 ^ exponent`. -/
structure Decimal where
  digits : Nat
  exponent : Int
  deriving DecidableEq, Repr

namespace Decimal

/-- Order of `a · 10 ^ i` and `n · 2 ^ j`, exactly. -/
def compareBinary (a : Nat) (i : Int) (n : Nat) (j : Int) : Ordering :=
  compare (a * 10 ^ i.toNat * 2 ^ (-j).toNat) (n * 2 ^ j.toNat * 10 ^ (-i).toNat)

/-- Move trailing zeros of the digits into the exponent, as many as allowed. -/
def stripZeros : Nat → Decimal → Decimal
  | 0, d => d
  | fuel + 1, d =>
      if d.digits ≠ 0 ∧ d.digits % 10 = 0 then
        stripZeros fuel ⟨d.digits / 10, d.exponent + 1⟩
      else d

end Decimal

namespace FloatType

/-- The gap below `m · 2 ^ q` is half the gap above: `m` is the least full
mantissa and a smaller exponent is left. -/
def narrowBelow (t : FloatType) (m : Nat) (q : Int) : Bool :=
  m = 2 ^ (t.precision - 1) ∧ t.minExponent < q

/-- **The rounding interval.**  `d` lies among the reals that round to `m · 2 ^ q`. -/
def singlesOut (t : FloatType) (m : Nat) (q : Int) (d : Decimal) : Bool :=
  let lower := if t.narrowBelow m q then 4 * m - 1 else 4 * m - 2
  let upper := 4 * m + 2
  let closed := m % 2 == 0
  let below := Decimal.compareBinary d.digits d.exponent lower (q - 2)
  let above := Decimal.compareBinary d.digits d.exponent upper (q - 2)
  (below == .gt || (closed && below == .eq)) && (above == .lt || (closed && above == .eq))

/-- A first guess, never too large and at most three too small, at the number of
digits before the point of `m · 2 ^ q`. -/
def scaleGuess (m : Nat) (q : Int) : Int :=
  ((Nat.log2 m : Int) + q) * 30103 / 100000 - 1

/-- The least `k` from a start on with `m · 2 ^ q < 10 ^ k`, in a bounded number of
steps. -/
def scaleFrom (m : Nat) (q : Int) : Nat → Int → Int
  | 0, k => k
  | fuel + 1, k =>
      if Decimal.compareBinary 1 k m q == .gt then k else scaleFrom m q fuel (k + 1)

/-- The greatest multiple of `10 ^ e` that does not exceed `m · 2 ^ q`, as digits. -/
def gridBelow (m : Nat) (q e : Int) : Nat :=
  (m * 2 ^ q.toNat * 10 ^ (-e).toNat) / (2 ^ (-q).toNat * 10 ^ e.toNat)

/-- The better neighbour on one grid, if one of them singles the number out. -/
def onGrid (t : FloatType) (m : Nat) (q e : Int) : Option Decimal :=
  let low : Decimal := ⟨gridBelow m q e, e⟩
  let high : Decimal := ⟨low.digits + 1, e⟩
  match t.singlesOut m q low, t.singlesOut m q high with
  | true, true =>
      -- twice the number against the sum of the two
      if Decimal.compareBinary (low.digits + high.digits) e m (q + 1) == .gt then some low
      else some high
  | true, false => some low
  | false, true => some high
  | false, false => none

/-- **The fewest digits** that single out `m · 2 ^ q`, for a positive `m`. -/
def shortest (t : FloatType) (m : Nat) (q : Int) : Decimal :=
  let k := scaleFrom m q 4 (scaleGuess m q)
  match (List.range 18).findSome? fun (n : Nat) => t.onGrid m q (k - (n + 1)) with
  | some d => d.stripZeros 20
  | none => ⟨m * 2 ^ q.toNat * 5 ^ (-q).toNat, min q 0⟩

end FloatType

end RecordMap
