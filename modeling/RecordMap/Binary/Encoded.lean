import RecordMap.Binary.Basic

/-!
# Encodings as text

The interchange encoding of a floating number written in hexadecimal: eight or
sixteen lower-case digits, and one word for every encoding of not-a-number.
-/

namespace RecordMap

namespace Text

/-- Hexadecimal digits filled up with zeros to a width. -/
def writeHex (width n : Nat) : List Char :=
  let digits := Nat.toDigits 16 n
  List.replicate (width - digits.length) '0' ++ digits

/-- The value of a hexadecimal digit in lower case. -/
def hexDigit? (c : Char) : Option Nat :=
  if c.isDigit then some (c.toNat - '0'.toNat)
  else if 'a' ≤ c ∧ c ≤ 'f' then some (c.toNat - 'a'.toNat + 10)
  else none

/-- Read hexadecimal digits in front of which a number has been read. -/
def readHexFrom? : Nat → List Char → Option Nat
  | n, [] => some n
  | n, c :: cs => (hexDigit? c).bind fun d => readHexFrom? (16 * n + d) cs

end Text

namespace FloatType

/-- The encoding of a number as text. -/
def writeEncoded (t : FloatType) : Binary → String
  | .nan => "nan"
  | x => String.ofList (Text.writeHex (t.bits / 4) (t.toBits x))

/-- **Reading** an encoding: the word for not-a-number, or as many digits as the
format has. -/
def readEncoded? (t : FloatType) (s : String) : Option Binary :=
  let digits := s.toList
  if s = "nan" then some .nan
  else if digits.length = t.bits / 4 then (Text.readHexFrom? 0 digits).map t.ofBits
  else none

end FloatType

end RecordMap
