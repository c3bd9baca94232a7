import RecordMap.Error

/-!
# Build sessions

A session accompanies the resolution and compilation of one mapping.  It
collects the problems found, so that all of them are reported together, and
counts what was done.
-/

namespace RecordMap

/-- How a member is produced, as counted by a session. -/
inductive Strategy where
  /-- A copy, perhaps through options. -/
  | direct
  /-- Through a converter, an operator or a built-in conversion. -/
  | viaConverter
  /-- A constant; the source is not read. -/
  | constant
  /-- Through the mapper of another pairing. -/
  | nested
  /-- Read, with a sentinel for an absent value. -/
  | guardedBySentinel
  deriving DecidableEq, Repr

namespace Strategy

/-- The name of a strategy. -/
def name : Strategy → String
  | direct => "direct"
  | viaConverter => "via-converter"
  | constant => "constant"
  | nested => "nested"
  | guardedBySentinel => "guarded-by-sentinel"

/-- Every strategy. -/
def all : List Strategy := [direct, viaConverter, constant, nested, guardedBySentinel]

/-- The strategy of a name. -/
def ofName? (name : String) : Option Strategy := all.find? (·.name == name)

/-- The capitalised name of a strategy in a dump. -/
def symbol : Strategy → String
  | direct => "Direct"
  | viaConverter => "ViaConverter"
  | constant => "Constant"
  | nested => "Nested"
  | guardedBySentinel => "GuardedBySentinel"

end Strategy

/-- What a session counts. -/
structure BuildStats where
  membersResolved : Nat := 0
  membersExcluded : Nat := 0
  membersIgnored : Nat := 0
  direct : Nat := 0
  viaConverter : Nat := 0
  constants : Nat := 0
  nested : Nat := 0
  sentinels : Nat := 0
  flattened : Nat := 0
  convertersLinked : Nat := 0
  shapesCompiled : Nat := 0
  deriving DecidableEq, Repr

namespace BuildStats

/-- Count a resolved member. -/
def countMember (s : BuildStats) (how : Strategy) : BuildStats :=
  let s := { s with membersResolved := s.membersResolved + 1 }
  match how with
  | .direct => { s with direct := s.direct + 1 }
  | .viaConverter => { s with viaConverter := s.viaConverter + 1 }
  | .constant => { s with constants := s.constants + 1 }
  | .nested => { s with nested := s.nested + 1 }
  | .guardedBySentinel => { s with sentinels := s.sentinels + 1 }

/-- The report of the counts, one line each. -/
def report (s : BuildStats) : String :=
  "Mapper Build Statistics:\n" ++
  "  Members resolved: " ++ toString s.membersResolved ++ "\n" ++
  "  Members excluded: " ++ toString s.membersExcluded ++ "\n" ++
  "  Members ignored: " ++ toString s.membersIgnored ++ "\n" ++
  "  By strategy: direct " ++ toString s.direct ++
    ", converter " ++ toString s.viaConverter ++
    ", constant " ++ toString s.constants ++
    ", nested " ++ toString s.nested ++
    ", sentinel " ++ toString s.sentinels ++ "\n" ++
  "  Flattened paths: " ++ toString s.flattened ++ "\n" ++
  "  Converters linked: " ++ toString s.convertersLinked ++ "\n" ++
  "  Shapes compiled: " ++ toString s.shapesCompiled ++ "\n"

end BuildStats

/-- Problems and counts of one build. -/
structure Session where
  /-- The display name of the pairing being built. -/
  pair : String
  diagnostics : List Diagnostic := []
  stats : BuildStats := {}
  deriving DecidableEq, Repr

namespace Session

/-- Record a problem. -/
def report (s : Session) (d : Diagnostic) : Session :=
  { s with diagnostics := s.diagnostics ++ [d] }

/-- Some problem was recorded. -/
def hasErrors (s : Session) : Bool := !s.diagnostics.isEmpty

/-- **The end of a session**: an error with all the problems, which are taken out
of the session, or success. -/
def finish (s : Session) : Except BuildError Unit × Session :=
  if s.diagnostics.isEmpty then (.ok (), s)
  else (.error (.invalid s.pair s.diagnostics), { s with diagnostics := [] })

/-- Count a resolved member. -/
def countMember (s : Session) (how : Strategy) : Session :=
  { s with stats := s.stats.countMember how }

/-- Count a member left out for want of a source. -/
def countExcluded (s : Session) : Session :=
  { s with stats.membersExcluded := s.stats.membersExcluded + 1 }

/-- Count a member left out by configuration. -/
def countIgnored (s : Session) : Session :=
  { s with stats.membersIgnored := s.stats.membersIgnored + 1 }

/-- Count a flattened path. -/
def countFlattened (s : Session) : Session :=
  { s with stats.flattened := s.stats.flattened + 1 }

/-- Count a converter or operator linked into a member. -/
def countConverter (s : Session) : Session :=
  { s with stats.convertersLinked := s.stats.convertersLinked + 1 }

/-- Count compiled calling shapes. -/
def countShapes (s : Session) (n : Nat) : Session :=
  { s with stats.shapesCompiled := s.stats.shapesCompiled + n }

end Session

end RecordMap
