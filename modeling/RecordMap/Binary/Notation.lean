import RecordMap.Binary.Rounding
import RecordMap.Binary.Shortest
import RecordMap.Text.Integer

/-!
# The text of floating numbers

**Writing** is positional at every size: the shortest digits that single the
number out, as many zeros as their place asks for, no exponent, and no point in
a whole number.  The sign of zero is kept.

**Reading** takes an optional sign, then one of `inf`, `infinity` and `nan` in
any case of letters, or digits with at most one point and an optional exponent;
there is at least one digit before the exponent and at least one in it.  The
result is the nearest number of the format.
-/

namespace RecordMap

-- Powers are the built-in ones, whichever library is in scope.
attribute [local instance (high)] instPowNat

namespace Decimal

/-- Positional text of a decimal. -/
def positional (d : Decimal) : List Char :=
  let digits := Text.writeNatural d.digits
  if 0 ≤ d.exponent then digits ++ List.replicate d.exponent.toNat '0'
  else
    let places := (-d.exponent).toNat
    if places < digits.length then
      digits.take (digits.length - places) ++ '.' :: digits.drop (digits.length - places)
    else '0' :: '.' :: (List.replicate (places - digits.length) '0' ++ digits)

end Decimal

/-! ## §1. Writing -/

namespace FloatType

/-- The text of a number of the format. -/
def write (t : FloatType) : Binary → String
  | .nan => "NaN"
  | .infinite negative => if negative then "-inf" else "inf"
  | .finite negative m q =>
      let digits := if m = 0 then ['0'] else (t.shortest m q).positional
      String.ofList (if negative then '-' :: digits else digits)

end FloatType

/-! ## §2. Reading -/

namespace Decimal

/-- Digits up to the first other character, and the rest. -/
def spanDigits (cs : List Char) : List Char × List Char :=
  (cs.takeWhile (·.isDigit), cs.dropWhile (·.isDigit))

/-- The exponent part: nothing, or `e` with an optional sign and digits. -/
def readExponent? : List Char → Option Int
  | [] => some 0
  | c :: cs => if c = 'e' ∨ c = 'E' then Text.readSigned? cs else none

/-- Read an unsigned decimal with optional point and exponent. -/
def read? (cs : List Char) : Option Decimal := do
  let (whole, rest) := spanDigits cs
  let (places, rest) :=
    match rest with
    | '.' :: rest => spanDigits rest
    | _ => ([], rest)
  if whole.isEmpty && places.isEmpty then none
  else
    let exponent ← readExponent? rest
    some ⟨Nat.ofDigitChars 10 (whole ++ places) 0, exponent - places.length⟩

end Decimal

namespace FloatType

/-- The number of the format nearest to a decimal.  Decimals far outside the
range of the format are settled by their size alone, a count of the places before
the point that is off by a few at most. -/
def ofDecimal (t : FloatType) (negative : Bool) (d : Decimal) : Binary :=
  let size := d.exponent + (Nat.log2 d.digits * 30103 / 100000 : Nat)
  if d.digits = 0 ∨ size < -400 then .finite negative 0 t.minExponent
  else if 400 < size then .infinite negative
  else t.ofRatio negative (d.digits * 10 ^ d.exponent.toNat) (10 ^ (-d.exponent).toNat)

/-- Read an unsigned number: a word or a decimal. -/
def readMagnitude? (t : FloatType) (negative : Bool) (cs : List Char) : Option Binary :=
  let word := cs.map Char.toLower
  if word = "inf".toList ∨ word = "infinity".toList then some (.infinite negative)
  else if word = "nan".toList then some .nan
  else (Decimal.read? cs).map (t.ofDecimal negative)

/-- **Reading a number** of the format; the text is not trimmed. -/
def read? (t : FloatType) : List Char → Option Binary
  | '-' :: cs => t.readMagnitude? true cs
  | '+' :: cs => t.readMagnitude? false cs
  | cs => t.readMagnitude? false cs

end FloatType

end RecordMap
