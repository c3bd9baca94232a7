/-!
# Dotted segments

Cutting a text at every occurrence of a separator, and joining segments again.
A text without the separator is one segment, the empty text included.
-/

namespace RecordMap.Text

/-- Cut at every separator. -/
def split (separator : Char) : List Char → List (List Char)
  | [] => [[]]
  | c :: cs =>
      if c = separator then [] :: split separator cs
      else
        match split separator cs with
        | [] => [[c]]
        | segment :: rest => (c :: segment) :: rest

/-- The segments of a dotted text. -/
def segments (s : String) : List String := (split '.' s.toList).map String.ofList

/-- Segments put together with a separator. -/
def join (separator : String) (names : List String) : String := separator.intercalate names

theorem split_ne_nil (separator : Char) (cs : List Char) : split separator cs ≠ [] := by
  induction cs with
  | nil => simp [split]
  | cons c cs ih =>
      unfold split
      split
      · simp
      · split <;> simp

example : segments "a..b" = ["a", "", "b"] := by decide

end RecordMap.Text
