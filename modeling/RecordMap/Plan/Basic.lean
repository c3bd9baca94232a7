import RecordMap.Config.Basic
import RecordMap.Path
import RecordMap.Session

/-!
# Plans

A specification is the resolved plan of one mapping.  For each destination
member that gets a value it has a member plan, in the order of assignment: under
which conditions the member is assigned, and how its value is produced, as a
constant or by reading the source through a conversion.

A plan is data.  The callbacks of the configuration are part of it, but nothing
of the owner or of other mappings is.
-/

namespace RecordMap

/-- Where a read member gets its source value. -/
inductive Accessor where
  | path (p : Path)
  | provider (p : Provider)

/-- The type of the source value. -/
def Accessor.type : Accessor → Ty
  | path p => p.terminal
  | provider p => p.output

/-- How the value of a member comes about. -/
inductive Production where
  /-- A value of the member's type, fitted when the mapping was resolved. -/
  | constant (v : Value)
  /-- The converted source value, or the sentinel or zero if it is absent. -/
  | read (accessor : Accessor) (conversion : Conversion) (sentinel : Option Value)

namespace Production

/-- The constant of a constant member. -/
def constant? : Production → Option Value
  | constant v => some v
  | read .. => none

/-- The accessor of a read member. -/
def accessor? : Production → Option Accessor
  | constant _ => none
  | read a _ _ => some a

/-- The conversion of a read member. -/
def conversion? : Production → Option Conversion
  | constant _ => none
  | read _ c _ => some c

/-- The sentinel of a read member. -/
def sentinel? : Production → Option Value
  | constant _ => none
  | read _ _ s => s

end Production

/-- The plan of one destination member. -/
structure MemberPlan where
  member : String
  type : Ty
  /-- Position of the member in the destination record. -/
  declaration : Nat
  /-- Priority of assignment; lower comes first. -/
  order : Int := 0
  strategy : Strategy
  /-- All of them have to hold for the member to be assigned. -/
  conditions : List Condition := []
  production : Production

namespace MemberPlan

/-- An option lies inside the path, so the value can be absent before it is
converted. -/
def nullCheck (p : MemberPlan) : Bool :=
  match p.production.accessor? with
  | some (.path path) => path.mayBreak
  | _ => false

/-- An optional source feeds a member that cannot be absent. -/
def nullCoalescing (p : MemberPlan) : Bool :=
  match p.production.accessor? with
  | some a => a.type.isNullable && !p.type.isNullable
  | none => false

/-- The order of assignment: by priority, then by declaration. -/
def comesBefore (p q : MemberPlan) : Bool :=
  p.order < q.order || (p.order = q.order && p.declaration ≤ q.declaration)

end MemberPlan

/-- How a destination is created before it is filled. -/
inductive Creation where
  /-- By the factory of the mapping. -/
  | custom (f : Factory)
  /-- As the defaults' factory for the type makes it. -/
  | fallback (v : Value)
  /-- As the zero of the type. -/
  | zero

/-- The name of a kind of creation. -/
def Creation.name : Creation → String
  | custom _ => "custom"
  | fallback _ => "fallback"
  | zero => "default"

/-- **The plan of a mapping.** -/
structure Specification where
  source : String
  destination : String
  profile : Option String := none
  /-- In the order of assignment. -/
  members : List MemberPlan := []
  creation : Creation := .zero
  before : List Hook := []
  after : List Hook := []
  guards : List Condition := []
  /-- The auxiliary parameter its callbacks need. -/
  parameter : Option Ty := none
  shapes : Shapes := .all

namespace Specification

/-- The pairing a plan is for. -/
def pairing (s : Specification) : Pairing :=
  ⟨.record s.source, .record s.destination, s.profile⟩

/-- The plan of a member. -/
def member? (s : Specification) (name : String) : Option MemberPlan :=
  s.members.find? (·.member == name)

/-- The names of the planned members in the order of assignment. -/
def memberNames (s : Specification) : List String := s.members.map (·.member)

end Specification

end RecordMap
