import RecordMap.Plan.Resolve

/-!
# Drafts of member plans

The plan of a member is filled in step by step.  It starts as a draft in which
nothing is set and the strategy is a placeholder; what feeds the member, the flags
and the sentinel are entered as they are found, and the strategy comes last.  A
draft has room for combinations of parts no plan has: the steps of the search are
all that rules them out.

`Config.draftMember` takes the same steps as `Config.searchMember`, in the same
order, and fills a draft instead of putting the parts together at the end.
-/

namespace RecordMap

/-- The plan of one destination member as it is filled in. -/
structure Draft where
  member : String
  type : Ty
  /-- Position of the member in the destination record. -/
  declaration : Nat
  order : Int := 0
  /-- A placeholder until the draft is finished. -/
  strategy : Strategy := .direct
  conditions : List Condition := []
  constant : Option Value := none
  accessor : Option Accessor := none
  conversion : Option Conversion := none
  sentinel : Option Value := none
  nullCheck : Bool := false
  nullCoalescing : Bool := false

/-- An option lies inside the path read. -/
def Accessor.mayBreak : Accessor → Bool
  | path p => p.mayBreak
  | provider _ => false

namespace Draft

/-- The order of assignment: by priority, then by declaration. -/
def comesBefore (x y : Draft) : Bool :=
  x.order < y.order || (x.order = y.order && x.declaration ≤ y.declaration)

/-- Enter a constant. -/
def fillConstant (σ : Schema) (c : Config) (d : Defaults) (x : Draft) (v : Value) :
    Search Draft := do
  let v ← c.fit σ d x.member x.type v
  return { x with constant := some v, strategy := .constant }

/-- Enter the flags of a source that may be absent. -/
def flag (x : Draft) (accessor : Accessor) : Draft :=
  { x with
    nullCheck := accessor.mayBreak
    nullCoalescing := accessor.type.isNullable && !x.type.isNullable }

/-- Enter the sentinel, if the flags ask for one and one is configured. -/
def fillSentinel (σ : Schema) (c : Config) (d : Defaults) (explicit : Option MemberConfig)
    (x : Draft) : Search Draft :=
  if !x.type.isNullable && (x.nullCheck || x.nullCoalescing) then
    match c.sentinel? d explicit x.type with
    | some v => do
        let v ← c.fit σ d x.member x.type v
        return { x with sentinel := some v }
    | none => return x
  else return x

/-- Enter a source and its conversion. -/
def fillRead (σ : Schema) (c : Config) (d : Defaults) (explicit : Option MemberConfig)
    (x : Draft) (accessor : Accessor) (conversion : Conversion) : Search Draft := do
  match conversion.pairings.find? (· == c.pairing) with
  | some own => Search.reject (.selfReferentialNesting x.member (own.name σ))
  | none => pure ()
  conversion.converters.forM fun k => do
    Search.noteParameter k.parameter?
    Search.note .converter
  let x ← (x.flag accessor).fillSentinel σ c d explicit
  return { x with
    strategy := Config.readStrategy conversion x.sentinel
    accessor := some accessor
    conversion := some conversion }

end Draft

namespace Config

/-- **Filling the plan of a member.** -/
def draftMember (σ : Schema) (c : Config) (d : Defaults) (declaration : Nat) (f : Field) :
    Search Draft := do
  let explicit := c.member? f.name
  if (explicit.map (·.ignored)).getD false then throw .ignored
  let origins := (explicit.map (·.origins)).getD []
  if 1 < origins.length then throw .rejected
  let conditions := (explicit.map (·.conditions)).getD []
  let x : Draft := {
    member := f.name, type := f.type, declaration
    order := (explicit.bind (·.order)).getD 0
    conditions }
  Search.noteParameters (conditions.map (·.parameter?))
  let origin := origins.head?
  match c.constant? d origin f.type with
  | some v => x.fillConstant σ c d v
  | none => do
      let (accessor, conversion) ← c.readSource σ d f.name f.type origin
      x.fillRead σ c d explicit accessor conversion

/-- The draft of a member, if it comes to one. -/
def draft? (σ : Schema) (c : Config) (d : Defaults) (declaration : Nat) (f : Field) :
    Option Draft :=
  (c.draftMember σ d declaration f |>.run {}).1.toOption

/-- **The drafts of a mapping**, in the order of assignment. -/
def drafts (σ : Schema) (c : Config) (d : Defaults) : List Draft :=
  (((σ.fields c.destination).zipIdx.filter (·.1.writable)).filterMap fun (f, i) =>
    c.draft? σ d i f).mergeSort Draft.comesBefore

end Config

/-- The parts of a plan, as a draft holds them. -/
def MemberPlan.parts (p : MemberPlan) : Draft where
  member := p.member
  type := p.type
  declaration := p.declaration
  order := p.order
  strategy := p.strategy
  conditions := p.conditions
  constant := p.production.constant?
  accessor := p.production.accessor?
  conversion := p.production.conversion?
  sentinel := p.production.sentinel?
  nullCheck := p.nullCheck
  nullCoalescing := p.nullCoalescing

end RecordMap
