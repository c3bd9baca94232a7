import RecordMap.Config.Defaults
import RecordMap.Conversion.Scope
import RecordMap.Shapes

/-!
# Mapping configurations

A configuration describes one mapping: from a source record to a destination
record under an optional profile.  It says for single members where they come
from, and for the mapping as a whole which converters, constants, hooks and
shapes it has.

A configuration is a list of settings applied in order (`Config.ofSettings`).
Nothing is checked here; problems are found when the mapping is resolved.
-/

namespace RecordMap

/-! ## §1. Configurations -/

/-- An explicit source of a member. -/
inductive Origin where
  | path (text : String)
  | provider (p : Provider)
  /-- Through the mapper of the two member types, under a profile of its own. -/
  | nested (text : String) (profile : Option String)
  | constant (v : Value)

/-- What is configured for one destination member. -/
structure MemberConfig where
  name : String
  ignored : Bool := false
  origins : List Origin := []
  sentinel : Option Value := none
  conditions : List Condition := []
  order : Option Int := none

/-- The description of one mapping. -/
structure Config where
  /-- The source record. -/
  source : String
  /-- The destination record. -/
  destination : String
  profile : Option String := none
  /-- Configured members, in the order of first mention. -/
  members : List MemberConfig := []
  converters : ConverterTable := {}
  constants : ValueTable := {}
  sentinels : ValueTable := {}
  factory : Option Factory := none
  before : List Hook := []
  after : List Hook := []
  guards : List Condition := []
  matcher : Option Matcher := none
  shapes : Shapes := .all

namespace Config

/-- The pairing a configuration describes. -/
def pairing (c : Config) : Pairing := ⟨.record c.source, .record c.destination, c.profile⟩

/-- What is configured for a member. -/
def member? (c : Config) (name : String) : Option MemberConfig :=
  c.members.find? (·.name == name)

/-- Change what is configured for a member, adding the member if it is new. -/
def updateMember (name : String) (f : MemberConfig → MemberConfig) :
    List MemberConfig → List MemberConfig
  | [] => [f { name }]
  | m :: rest => if m.name = name then f m :: rest else m :: updateMember name f rest

/-- Change what is configured for a member. -/
def onMember (c : Config) (name : String) (f : MemberConfig → MemberConfig) : Config :=
  { c with members := updateMember name f c.members }

/-- Add an explicit source of a member. -/
def addOrigin (c : Config) (name : String) (o : Origin) : Config :=
  c.onMember name fun m => { m with origins := m.origins ++ [o] }

/-- The conversions a mapping can use. -/
def scope (c : Config) (d : Defaults) : Scope :=
  { mapping := c.converters, defaults := d.converters, operators := d.operators,
    profile := c.profile }

/-! ## §2. Settings -/

/-- One setting of a configuration. -/
inductive Setting where
  | profile (name : String)
  | ignore (member : String)
  | mapPath (member text : String)
  | mapNested (member text : String) (profile : Option String)
  | mapFrom (member : String) (p : Provider)
  | constant (member : String) (v : Value)
  | sentinel (member : String) (v : Value)
  | constantFor (v : Value)
  | sentinelFor (v : Value)
  | condition (member : String) (c : Condition)
  | guarded (c : Condition)
  | order (member : String) (n : Int)
  | converter (c : Converter)
  | factory (f : Factory)
  | before (h : Hook)
  | after (h : Hook)
  | matcher (m : Matcher)
  | shapes (s : Shapes)

/-- Apply a setting.  Sources, conditions and hooks accumulate; all else is
replaced by the later setting. -/
def apply (c : Config) : Setting → Config
  | .profile name => { c with profile := some name }
  | .ignore member => c.onMember member fun m => { m with ignored := true }
  | .mapPath member text => c.addOrigin member (.path text)
  | .mapNested member text profile => c.addOrigin member (.nested text profile)
  | .mapFrom member p => c.addOrigin member (.provider p)
  | .constant member v => c.addOrigin member (.constant v)
  | .sentinel member v => c.onMember member fun m => { m with sentinel := some v }
  | .constantFor v => { c with constants := c.constants.insert v }
  | .sentinelFor v => { c with sentinels := c.sentinels.insert v }
  | .condition member p =>
      c.onMember member fun m => { m with conditions := m.conditions ++ [p] }
  | .guarded p => { c with guards := c.guards ++ [p] }
  | .order member n => c.onMember member fun m => { m with order := some n }
  | .converter k => { c with converters := c.converters.insert k }
  | .factory f => { c with factory := some f }
  | .before h => { c with before := c.before ++ [h] }
  | .after h => { c with after := c.after ++ [h] }
  | .matcher m => { c with matcher := some m }
  | .shapes s => { c with shapes := s }

/-- **The configuration described by settings.** -/
def ofSettings (source destination : String) (settings : List Setting) : Config :=
  settings.foldl apply { source, destination }

end Config

end RecordMap
