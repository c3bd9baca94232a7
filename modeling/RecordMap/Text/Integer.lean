/-!
# Decimal integers

How an integer is written, and which texts are read as one: an optional single
sign and one or more decimal digits, nothing else, of a value that a signed word
of 128 bits can hold.  The digits are collected in such a word, and a step that
would leave it ends the reading.
-/

namespace RecordMap.Text

-- Powers are the built-in ones, whichever library is in scope.
attribute [local instance (high)] instPowNat

/-! ## §1. The word -/

/-- The least integer of a signed 128-bit word. -/
def wideMin : Int := -2 ^ (127 : Nat)

/-- The greatest integer of a signed 128-bit word. -/
def wideMax : Int := 2 ^ (127 : Nat) - 1

/-- `n` is an integer of the word. -/
def IsWide (n : Int) : Prop := wideMin ≤ n ∧ n ≤ wideMax

instance (n : Int) : Decidable (IsWide n) := inferInstanceAs (Decidable (_ ∧ _))

/-- The integer itself, if the word holds it. -/
def wide? (n : Int) : Option Int := if IsWide n then some n else none

/-! ## §2. Writing -/

/-- Decimal digits, without leading zeros. -/
def writeNatural (n : Nat) : List Char := Nat.toDigits 10 n

/-- Decimal digits behind a minus sign where one is due. -/
def writeInteger (n : Int) : List Char :=
  if n < 0 then '-' :: writeNatural n.natAbs else writeNatural n.natAbs

/-- An integer as text. -/
def ofInteger (n : Int) : String := String.ofList (writeInteger n)

/-! ## §3. Reading -/

/-- Read one or more decimal digits. -/
def readNatural? (cs : List Char) : Option Nat :=
  if cs.isEmpty then none
  else if cs.all (·.isDigit) then some (Nat.ofDigitChars 10 cs 0)
  else none

/-- Read digits behind an optional sign, of any size. -/
def readSigned? : List Char → Option Int
  | '-' :: cs => (readNatural? cs).map fun n => -(n : Int)
  | '+' :: cs => (readNatural? cs).map fun n => (n : Int)
  | cs => (readNatural? cs).map fun n => (n : Int)

/-- Put one more digit behind those read so far, which are on the side of zero where
the sign puts them.  Each step has to stay within the word. -/
def pushDigit? (negative : Bool) (n : Int) (c : Char) : Option Int :=
  if c.isDigit then do
    let shifted ← wide? (10 * n)
    let digit : Int := (c.toNat - '0'.toNat : Nat)
    wide? (if negative then shifted - digit else shifted + digit)
  else none

/-- Read one or more decimal digits within the word, digit by digit. -/
def readDigits? (negative : Bool) : List Char → Option Int
  | [] => none
  | cs => cs.foldlM (pushDigit? negative) 0

/-- **Reading an integer.**  The text is not trimmed; a value that does not fit
128 bits is no integer. -/
def readInteger? : List Char → Option Int
  | '-' :: cs => readDigits? true cs
  | '+' :: cs => readDigits? false cs
  | cs => readDigits? false cs

end RecordMap.Text
