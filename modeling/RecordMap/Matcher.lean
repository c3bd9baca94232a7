/-!
# Name matching

A matcher decides whether the name of a destination member matches the name of a
source member.  The three built-in matchers form a ladder: names that are equal,
names that are equal but for the case of ASCII letters, and names that are equal
but for case and underscores.  Anything else is a predicate of the user.
-/

namespace RecordMap

/-! ## §1. Matchers -/

/-- A name matcher. -/
inductive Matcher where
  | exact
  | ignoreCase
  | flexible
  /-- A predicate on the destination name and the source name. -/
  | custom (accepts : String → String → Bool)

namespace Matcher

instance : Inhabited Matcher := ⟨.exact⟩

/-- A name with its ASCII letters in lower case. -/
def foldCase (name : String) : List Char := name.toList.map Char.toLower

/-- A name without underscores, with its ASCII letters in lower case. -/
def foldName (name : String) : List Char :=
  (name.toList.filter (· != '_')).map Char.toLower

/-- **Matching** a destination name with a source name. -/
def accepts (m : Matcher) (destination source : String) : Bool :=
  match m with
  | .exact => destination == source
  | .ignoreCase => foldCase destination == foldCase source
  | .flexible => foldName destination == foldName source
  | .custom f => f destination source

/-- The dump of a matcher. -/
def dump : Matcher → String
  | .exact => "Exact"
  | .ignoreCase => "IgnoreCase"
  | .flexible => "Flexible"
  | .custom _ => "Custom"

/-! ## §2. Predicates on names -/

/-- The source name is the destination name behind a word. -/
def afterWord (word : String) : Matcher :=
  .custom fun destination source => source == word ++ destination

/-- The source name is the destination name read backwards. -/
def reversed : Matcher :=
  .custom fun destination source => destination.toList.reverse == source.toList

/-- The names begin with the same character, or are both empty. -/
def sameInitial : Matcher :=
  .custom fun destination source => destination.toList.head? == source.toList.head?

/-- Any two names match. -/
def anything : Matcher := .custom fun _ _ => true

end Matcher

end RecordMap
