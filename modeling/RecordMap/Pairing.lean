import RecordMap.Schema
import RecordMap.Text.Quoted

/-!
# Pairings

A pairing is a source type, a destination type and an optional profile.  It is
what mappings are registered under, what compiled mappers are kept under, and
what a nested conversion asks for.
-/

namespace RecordMap

/-- A source and a destination type under a profile. -/
structure Pairing where
  source : Ty
  destination : Ty
  profile : Option String := none
  deriving DecidableEq, Repr, Hashable

namespace Pairing

/-- The display name of a pairing; the profile stands in brackets. -/
def name (σ : Schema) (p : Pairing) : String :=
  σ.name p.source ++ " -> " ++ σ.name p.destination ++
    match p.profile with
    | some profile => " [" ++ profile ++ "]"
    | none => ""

/-- The pairing without its profile. -/
def plain (p : Pairing) : Pairing := { p with profile := none }

/-- The pairing with the two types exchanged. -/
def swap (p : Pairing) : Pairing := ⟨p.destination, p.source, p.profile⟩

/-- The dump of a pairing as the coordinates of a nested mapper. -/
def dump (σ : Schema) (p : Pairing) : String :=
  "NestedCoordinates \x7b source: " ++ σ.name p.source ++ ", target: " ++
    σ.name p.destination ++ ", profile: " ++ Text.quoteOption p.profile ++ " \x7d"

end Pairing

end RecordMap
