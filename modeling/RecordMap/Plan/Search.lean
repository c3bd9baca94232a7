import RecordMap.Conversion.Run
import RecordMap.Plan.Basic

/-!
# The plan of one member

For each writable member of the destination a search decides its *fate*: it is
ignored, it gets a plan, it is excluded because nothing feeds it, or it is
rejected with a problem.  The search looks at

1. whether the configuration ignores the member;
2. its constant: its own, else the mapping's for its type, else the defaults';
   a constant wins over every other source;
3. its explicit source: a path, a provider or a nested mapping;
4. the first readable source member whose name matches, then a flattened path.

A source is then fitted with a conversion and, where its value can be absent and
the member cannot, with a sentinel.

What the search of one member notes on the way is its own; nothing of it depends
on other members.
-/

namespace RecordMap

/-! ## §1. Notes of a search -/

/-- Something found on the way that the build session has to know. -/
inductive Finding where
  | problem (d : Diagnostic)
  /-- A callback declares an auxiliary parameter of the type. -/
  | parameter (t : Ty)
  /-- A converter or operator was linked. -/
  | converter
  /-- The source is a flattened path. -/
  | flattened

/-- What a search has noted: its findings, and the callbacks it ran. -/
structure Notes where
  findings : List Finding := []
  journal : Journal := {}

/-- What becomes of a writable member. -/
inductive Fate where
  | ignored
  | excluded
  | rejected
  | planned (p : MemberPlan)

/-- A search for a plan; it ends early with another fate. -/
abbrev Search (α : Type) := ExceptT Fate (StateM Notes) α

namespace Search

/-- Note a finding. -/
def note (f : Finding) : Search Unit :=
  modify fun n => { n with findings := n.findings ++ [f] }

/-- Note the parameter a callback declares, if any. -/
def noteParameter : Option Ty → Search Unit
  | some t => note (.parameter t)
  | none => return ()

/-- Note the parameters of several callbacks in order. -/
def noteParameters (ts : List (Option Ty)) : Search Unit := ts.forM noteParameter

/-- End the search with a problem. -/
def reject {α : Type} (d : Diagnostic) : Search α := do
  note (.problem d)
  throw .rejected

end Search

/-! ## §2. Fitting constants -/

/-- No nested mapper can be reached. -/
def Conversion.unreachable {ω : Type} : Nesting ω := fun _ _ _ => throw .ownerDropped

/-- **Evaluation** of a conversion outside of any call: no parameter, no scratch,
no nested mappers.  The callbacks run are handed out beside the result. -/
def Conversion.evaluate (σ : Schema) (c : Conversion) (v : Value) :
    Except MapError (Option Value) × Journal :=
  let start : Call Unit := { trail := { outside := () } }
  let (result, call) := (c.run σ none none Conversion.unreachable v).run start
  (result, call.trail.journal)

/-- Why a constant cannot be used for a member, once it has been evaluated. -/
def fitted (σ : Schema) (type : Ty) : Except MapError (Option Value) → Except String Value
  | .error e => .error e.message
  | .ok none => .error "the value is absent"
  | .ok (some out) =>
      match out.as? type with
      | some out => .ok out
      | none => .error ("conversion did not produce " ++ σ.name type)

namespace Config

/-- **Fitting** a constant or a sentinel to the type of its member, once and for
all calls. -/
def fit (σ : Schema) (c : Config) (d : Defaults) (member : String) (type : Ty) (v : Value) :
    Search Value :=
  if v.type = type then return v
  else
    match (c.scope d).resolve v.type type with
    | none =>
        Search.reject (.constantConversion member
          ("no conversion from " ++ σ.name v.type ++ " to " ++ σ.name type))
    | some conversion =>
        if conversion.isNested then
          Search.reject (.constantConversion member "a nested mapping cannot produce a constant")
        else do
          -- What ran for the value is noted even if it does not fit.
          let (result, journal) := conversion.evaluate σ v
          modify fun n => { n with journal := n.journal ++ journal }
          match fitted σ type result with
          | .ok out => return out
          | .error reason => Search.reject (.constantConversion member reason)

/-! ## §3. Sources -/

/-- The constant of a member: its own, the mapping's or the defaults' for its
type. -/
def constant? (c : Config) (d : Defaults) (origin : Option Origin) (type : Ty) : Option Value :=
  match origin with
  | some (.constant v) => some v
  | _ => (c.constants.get? type).or (d.constants.get? type)

/-- The sentinel of a member: its own, the mapping's or the defaults' for its
type. -/
def sentinel? (c : Config) (d : Defaults) (explicit : Option MemberConfig) (type : Ty) :
    Option Value :=
  (explicit.bind (·.sentinel)).or <|
    (c.sentinels.get? type).or (d.sentinels.get? type)

/-- The matcher of a mapping. -/
def nameMatcher (c : Config) (d : Defaults) : Matcher := c.matcher.getD d.matcher

/-- The source member of a matching name. -/
def namedPath? (σ : Schema) (c : Config) (d : Defaults) (member : String) : Option Path := do
  let (_, f) ← (Path.readable σ c.source).find? fun (_, f) =>
    (c.nameMatcher d).accepts member f.name
  Path.ofMember? σ c.source f.name

/-- The automatic source of a member: a member of a matching name, then a
flattened path. -/
def automaticPath (σ : Schema) (c : Config) (d : Defaults) (member : String) : Search Path :=
  match namedPath? σ c d member with
  | some p => return p
  | none =>
      match Path.flatten? σ c.source member (c.nameMatcher d) with
      | some p => do
          Search.note .flattened
          return p
      | none => throw .excluded

/-- An explicit path, which has to exist. -/
def explicitPath (σ : Schema) (c : Config) (member text : String) : Search Path :=
  match Path.parse? σ c.source text with
  | some p => return p
  | none => Search.reject (.unknownSourcePath member text)

/-- A conversion, which has to exist. -/
def requireConversion (σ : Schema) (member : String) (source target : Ty) :
    Option Conversion → Search Conversion
  | some conversion => return conversion
  | none => Search.reject (.noConversion member (σ.name source) (σ.name target))

/-- The source of a member that is read, and its conversion. -/
def readSource (σ : Schema) (c : Config) (d : Defaults) (member : String) (type : Ty) :
    Option Origin → Search (Accessor × Conversion)
  | some (.path text) => do
      let p ← c.explicitPath σ member text
      let conversion ← requireConversion σ member p.terminal type
        ((c.scope d).resolve p.terminal type)
      return (.path p, conversion)
  | some (.provider p) => do
      Search.noteParameter p.parameter?
      let conversion ← requireConversion σ member p.output type
        ((c.scope d).resolve p.output type)
      return (.provider p, conversion)
  | some (.nested text profile) => do
      let p ← c.explicitPath σ member text
      let conversion ← requireConversion σ member p.terminal type
        (Scope.nesting (profile.or c.profile) p.terminal type)
      return (.path p, conversion)
  | _ => do
      let p ← c.automaticPath σ d member
      let conversion ← requireConversion σ member p.terminal type
        ((c.scope d).resolve p.terminal type)
      return (.path p, conversion)

/-! ## §4. Members -/

/-- The strategy a read member is counted under. -/
def readStrategy (conversion : Conversion) (sentinel : Option Value) : Strategy :=
  if sentinel.isSome then .guardedBySentinel
  else if conversion.isNested then .nested
  else if conversion.isPassThrough then .direct
  else .viaConverter

/-- The source can come out absent where the member cannot. -/
def needsSentinel (accessor : Accessor) (type : Ty) : Bool :=
  let breaks :=
    match accessor with
    | .path p => p.mayBreak
    | .provider _ => false
  !type.isNullable && (breaks || accessor.type.isNullable)

/-- The production of a read member, with its strategy. -/
def readProduction (σ : Schema) (c : Config) (d : Defaults) (explicit : Option MemberConfig)
    (member : String) (type : Ty) (accessor : Accessor) (conversion : Conversion) :
    Search (Strategy × Production) := do
  match conversion.pairings.find? (· == c.pairing) with
  | some own => Search.reject (.selfReferentialNesting member (own.name σ))
  | none => pure ()
  conversion.converters.forM fun k => do
    Search.noteParameter k.parameter?
    Search.note .converter
  let sentinel ←
    match (if needsSentinel accessor type then c.sentinel? d explicit type else none) with
    | some v => some <$> c.fit σ d member type v
    | none => pure none
  return (readStrategy conversion sentinel, .read accessor conversion sentinel)

/-- **The search for the plan of a member**, declared at a position of the
destination record. -/
def searchMember (σ : Schema) (c : Config) (d : Defaults) (declaration : Nat) (f : Field) :
    Search MemberPlan := do
  let explicit := c.member? f.name
  if (explicit.map (·.ignored)).getD false then throw .ignored
  let origins := (explicit.map (·.origins)).getD []
  if 1 < origins.length then throw .rejected
  let conditions := (explicit.map (·.conditions)).getD []
  Search.noteParameters (conditions.map (·.parameter?))
  -- There is at most one from here on.
  let origin := origins.head?
  let (strategy, production) ←
    match c.constant? d origin f.type with
    | some v => do
        let v ← c.fit σ d f.name f.type v
        pure (.constant, .constant v)
    | none => do
        let (accessor, conversion) ← c.readSource σ d f.name f.type origin
        c.readProduction σ d explicit f.name f.type accessor conversion
  return {
    member := f.name, type := f.type, declaration
    order := (explicit.bind (·.order)).getD 0
    strategy, conditions, production }

/-- The fate of a member and the notes of its search. -/
def fateOf (σ : Schema) (c : Config) (d : Defaults) (declaration : Nat) (f : Field) :
    Fate × Notes :=
  match (c.searchMember σ d declaration f).run {} with
  | (.ok plan, notes) => (.planned plan, notes)
  | (.error fate, notes) => (fate, notes)

end Config

end RecordMap
