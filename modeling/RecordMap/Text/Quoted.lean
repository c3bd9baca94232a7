import RecordMap.Text.Glyph

/-!
# Quoted text

A text inside a message is written between double quotes.  Inside, the quote
and the backslash get a backslash; the null character, tab, line feed and
carriage return have two-character forms; and a character that is unprintable
or extends the one before it is written by its code point, in lower-case
hexadecimal.  All else stands as it is.
-/

namespace RecordMap.Text

/-- The code point form, `u` and braces around hexadecimal digits. -/
def escapeCode (c : Char) : List Char :=
  '\\' :: 'u' :: '\x7b' :: (Nat.toDigits 16 c.toNat ++ ['\x7d'])

/-- The form of one character inside quotes. -/
def escapeChar (c : Char) : List Char :=
  if c = '\x00' then ['\\', '0']
  else if c = '\t' then ['\\', 't']
  else if c = '\n' then ['\\', 'n']
  else if c = '\r' then ['\\', 'r']
  else if c = '"' then ['\\', '"']
  else if c = '\\' then ['\\', '\\']
  else if isExtending c || isUnprintable c then escapeCode c
  else [c]

/-- **Quoting** a text. -/
def quote (s : String) : String :=
  String.ofList ('"' :: (s.toList.flatMap escapeChar ++ ['"']))

/-- An optional text: a bare word for its absence, else quoted in its wrapper. -/
def quoteOption : Option String → String
  | none => "None"
  | some s => "Some(" ++ quote s ++ ")"

end RecordMap.Text
