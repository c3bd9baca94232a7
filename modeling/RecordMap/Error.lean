/-!
# Diagnostics and errors

Failures come in three classes.  A *diagnostic* is one problem found while a
mapping is resolved; a *build error* carries all the diagnostics of one mapping
together, or says that nothing is registered for the pair asked for; a *map
error* is a fault of a running mapping.

Types and pairs appear in errors by their display names.  The wording of each
class is one function.
-/

namespace RecordMap

/-- One problem found while a mapping is resolved. -/
inductive Diagnostic where
  | unknownMember (member : String)
  | unknownSourcePath (member path : String)
  | noConversion (member source target : String)
  | duplicateMapping (member : String) (count : Nat)
  | conflictingParameterTypes (first second : String)
  | constantConversion (member reason : String)
  | selfReferentialNesting (member pair : String)
  | noShapes (reason : String)
  deriving DecidableEq, Repr

/-- The class of a diagnostic. -/
def Diagnostic.kind : Diagnostic → String
  | unknownMember .. => "UnknownMember"
  | unknownSourcePath .. => "UnknownSourcePath"
  | noConversion .. => "NoConversion"
  | duplicateMapping .. => "DuplicateMapping"
  | conflictingParameterTypes .. => "ConflictingParameterTypes"
  | constantConversion .. => "ConstantConversion"
  | selfReferentialNesting .. => "SelfReferentialNesting"
  | noShapes .. => "NoShapes"

/-- The wording of a diagnostic. -/
def Diagnostic.message : Diagnostic → String
  | unknownMember member =>
      "destination member `" ++ member ++ "` does not exist or is not writable"
  | unknownSourcePath member path =>
      "source path `" ++ path ++ "` for member `" ++ member ++ "` cannot be resolved"
  | noConversion member source target =>
      "no conversion from " ++ source ++ " to " ++ target ++ " for member `" ++ member ++ "`"
  | duplicateMapping member count =>
      "member `" ++ member ++ "` has " ++ toString count ++ " explicit source mappings"
  | conflictingParameterTypes first second =>
      "conflicting auxiliary parameter types " ++ first ++ " and " ++ second
  | constantConversion member reason =>
      "value for member `" ++ member ++ "` cannot be used: " ++ reason
  | selfReferentialNesting member pair =>
      "member `" ++ member ++ "` nests " ++ pair ++ " inside itself"
  | noShapes reason => "no calling shape can be compiled: " ++ reason

/-- Why no mapper could be had for a pair. -/
inductive BuildError where
  /-- The mapping was resolved with problems. -/
  | invalid (pair : String) (diagnostics : List Diagnostic)
  | notRegistered (pair : String)
  deriving DecidableEq, Repr

namespace BuildError

/-- The diagnostics of an invalid mapping. -/
def diagnostics : BuildError → List Diagnostic
  | invalid _ ds => ds
  | notRegistered _ => []

/-- The class of a build error. -/
def kind : BuildError → String
  | invalid .. => "Invalid"
  | notRegistered _ => "NotRegistered"

/-- The wording of a build error: every diagnostic, in order. -/
def message : BuildError → String
  | invalid pair ds =>
      "mapping " ++ pair ++ " failed to resolve: " ++ "; ".intercalate (ds.map (·.message))
  | notRegistered pair => "no mapping registered for " ++ pair

end BuildError

/-- A fault of a running mapping. -/
inductive MapError where
  | conversion (source target reason : String)
  | typeMismatch (expected : String)
  | nestedMapperMissing (pair : String)
  /-- The mapper of a nested pair could not be built. -/
  | build (cause : BuildError)
  | parameterMissing (expected : String)
  | parameterType (expected : String)
  | shapeNotCompiled (shape pair : String)
  /-- A fallible callback failed with the given text. -/
  | callback (cause : String)
  /-- The owner of the running mapper is gone. -/
  | ownerDropped
  /-- Nested mappings ran deeper than the limit the caller set. -/
  | nestingTooDeep
  deriving DecidableEq, Repr

namespace MapError

/-- The class of a map error. -/
def kind : MapError → String
  | conversion .. => "Conversion"
  | typeMismatch _ => "TypeMismatch"
  | nestedMapperMissing _ => "NestedMapperMissing"
  | build _ => "Build"
  | parameterMissing _ => "ParameterMissing"
  | parameterType _ => "ParameterType"
  | shapeNotCompiled .. => "ShapeNotCompiled"
  | callback _ => "Callback"
  | ownerDropped => "RegistryDropped"
  | nestingTooDeep => "NestingTooDeep"

/-- The wording of a map error.  The cause of a nested build and the text of a
failing callback are not part of it. -/
def message : MapError → String
  | conversion source target reason =>
      "cannot convert " ++ source ++ " to " ++ target ++ ": " ++ reason
  | typeMismatch expected => "expected a value of type " ++ expected
  | nestedMapperMissing pair => "no mapper available for nested pair " ++ pair
  | build _ => "nested mapper could not be built"
  | parameterMissing expected => "auxiliary parameter of type " ++ expected ++ " is required"
  | parameterType expected => "auxiliary parameter must have type " ++ expected
  | shapeNotCompiled shape pair => shape ++ " shape was not compiled for " ++ pair
  | callback _ => "mapping callback failed"
  | ownerDropped => "the mapper owning this routine was dropped"
  | nestingTooDeep => "nested mappings exceed the nesting limit"

end MapError

end RecordMap
