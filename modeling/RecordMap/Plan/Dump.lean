import RecordMap.Plan.Basic

/-!
# Dumps of plans

The text of a specification for inspection: every member plan with its
conversion tree, and for the callbacks what they are declared with or how many
there are.
-/

namespace RecordMap

/-- A record in a dump: its name and its fields. -/
def dumpRecord (name : String) (fields : List (String × String)) : String :=
  name ++ " \x7b " ++ ", ".intercalate (fields.map fun (k, v) => k ++ ": " ++ v) ++ " \x7d"

/-- An optional part of a dump. -/
def dumpOption : Option String → String
  | none => "None"
  | some s => "Some(" ++ s ++ ")"

/-- A truth value in a dump. -/
def dumpBool (b : Bool) : String := if b then "true" else "false"

/-- A parameter type; its identity has no text of its own. -/
def dumpParameter (σ : Schema) (t : Ty) : String :=
  dumpRecord "ParamType" [("id", "TypeId(_)"), ("name", Text.quote (σ.name t))]

/-- A constant, by its type. -/
def dumpConstant (σ : Schema) (v : Value) : String := "ConstantValue(" ++ σ.name v.type ++ ")"

/-- A converter. -/
def Converter.dump (σ : Schema) (c : Converter) : String :=
  dumpRecord "Converter"
    [("source", σ.name c.source), ("target", σ.name c.target),
     ("param", dumpOption (c.parameter?.map (dumpParameter σ)))]

/-- A conversion tree. -/
def Conversion.dump (σ : Schema) : Conversion → String
  | passThrough t => "PassThrough(" ++ σ.name t ++ ")"
  | converter c => "Converter(" ++ c.dump σ ++ ")"
  | operator c => "Operator(" ++ c.dump σ ++ ")"
  | primitive a b => dumpRecord "Primitive" [("from", a.symbol), ("to", b.symbol)]
  | fromEnum _ b => dumpRecord "FromEnum" [("shape", "EnumShape"), ("to", b.symbol)]
  | toEnum a _ => dumpRecord "ToEnum" [("from", a.symbol), ("shape", "EnumShape")]
  | enumToEnum _ _ => dumpRecord "EnumToEnum" [("from", "EnumShape"), ("to", "EnumShape")]
  | unwrap _ next =>
      dumpRecord "Unwrap" [("shape", "NullableShape"), ("then", next.dump σ)]
  | wrap _ next => dumpRecord "Wrap" [("then", next.dump σ), ("shape", "NullableShape")]
  | wrapSource t next =>
      dumpRecord "WrapSource"
        [("source", σ.name t), ("shape", "NullableShape"), ("then", next.dump σ)]
  | elements _ _ next =>
      dumpRecord "Elements"
        [("from", "SequenceShape"), ("to", "SequenceShape"), ("element", next.dump σ)]
  | nested p => "Nested(" ++ p.dump σ ++ ")"

/-- An accessor. -/
def Accessor.dump (σ : Schema) : Accessor → String
  | path p => p.dump σ
  | provider p => "Provider(" ++ σ.name p.output ++ ")"

/-- A member plan. -/
def MemberPlan.dump (σ : Schema) (m : MemberPlan) : String :=
  dumpRecord "MemberPlan"
    [("target", m.member ++ ": " ++ σ.name m.type),
     ("strategy", m.strategy.symbol),
     ("source", dumpOption (m.production.accessor?.map (·.dump σ))),
     ("conversion", dumpOption (m.production.conversion?.map (·.dump σ))),
     ("guarded", dumpBool !m.conditions.isEmpty),
     ("sentinel", dumpOption (m.production.sentinel?.map (dumpConstant σ))),
     ("order", toString m.order),
     ("declaration", toString m.declaration)]

/-- A kind of creation. -/
def Creation.dump : Creation → String
  | custom _ => "Custom"
  | fallback _ => "Fallback"
  | zero => "Default"

/-- A specification. -/
def Specification.dump (σ : Schema) (s : Specification) : String :=
  dumpRecord "MappingSpecification"
    [("source", σ.name (.record s.source)),
     ("destination", σ.name (.record s.destination)),
     ("profile", Text.quoteOption s.profile),
     ("members", "[" ++ ", ".intercalate (s.members.map (·.dump σ)) ++ "]"),
     ("factory", s.creation.dump),
     ("before", toString s.before.length),
     ("after", toString s.after.length),
     ("guarded", dumpBool !s.guards.isEmpty),
     ("parameter", dumpOption (s.parameter.map (dumpParameter σ))),
     ("shapes", s.shapes.dump)]

end RecordMap
