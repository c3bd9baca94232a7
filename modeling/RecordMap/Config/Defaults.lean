import RecordMap.ConverterTable
import RecordMap.Matcher

/-!
# Defaults

What an owner provides to all its mappings: converters and operators, constants
and sentinels by member type, factories by destination type, and the matcher of
mappings that choose none.  Defaults are described by a list of settings,
applied in order; a later setting of the same slot replaces the earlier.
-/

namespace RecordMap

/-- Fallbacks of an owner. -/
structure Defaults where
  converters : ConverterTable := {}
  operators : ConverterTable := {}
  constants : ValueTable := {}
  sentinels : ValueTable := {}
  /-- The destination a factory makes, by its type. -/
  factories : ValueTable := {}
  matcher : Matcher := .exact

/-- One setting of the defaults. -/
inductive Defaults.Setting where
  | converter (c : Converter)
  | operator (c : Converter)
  | constantFor (v : Value)
  | sentinelFor (v : Value)
  | factoryFor (v : Value)
  | matcher (m : Matcher)

namespace Defaults

/-- Apply a setting. -/
def apply (d : Defaults) : Setting → Defaults
  | .converter c => { d with converters := d.converters.insert c }
  | .operator c => { d with operators := d.operators.insert c }
  | .constantFor v => { d with constants := d.constants.insert v }
  | .sentinelFor v => { d with sentinels := d.sentinels.insert v }
  | .factoryFor v => { d with factories := d.factories.insert v }
  | .matcher m => { d with matcher := m }

/-- The defaults described by settings. -/
def ofSettings (settings : List Setting) : Defaults := settings.foldl apply {}

end Defaults

end RecordMap
