import RecordMap.Mapper
import RecordMap.Plan.Resolve
import RecordMap.Registry

/-!
# Owners

An owner holds the configurations of its mappings and the registry of the
mappers compiled from them.  Nothing is compiled when an owner is made: the
first request for a pairing resolves its configuration, and later requests get
the same mapper instance.  A request under a profile that has no configuration
of its own falls back to the unprofiled configuration, and shares its mapper.

Mappers reach the mappers nested in them through their owner.  The first time
one is reached it is linked to the member that led to it, and from then on the
link is followed.  A mapper can be used after its owner is gone; only links not
yet made are then out of reach.

Instances are numbered in the order in which they are built.
-/

namespace RecordMap

-- Powers are the built-in ones, whichever library is in scope.
attribute [local instance (high)] instPowNat

/-! ## §1. Configuration -/

/-- The configuration of an owner. -/
structure Owner where
  schema : Schema
  /-- One configuration for each pairing, in the order of registration. -/
  configs : List Config := []
  defaults : Defaults := {}
  options : RegistryOptions := {}
  /-- How deep calls may nest.  Nothing about mappings depends on it: as given it
  lies beyond what the memory of a machine has room for. -/
  nestingLimit : Nat := 2 ^ (32 : Nat)
  /-- The hash of the registry. -/
  hash : Pairing → UInt64 := Hashable.hash

/-- What changes while an owner is used. -/
structure Owner.State where
  registry : Registry Pairing Nat
  /-- The instances built, by number. -/
  mappers : Array Mapper := #[]
  /-- The links of nested members: instance and member to instance. -/
  links : List ((Nat × Nat) × Nat) := []
  /-- The owner has not been dropped. -/
  alive : Bool := true

namespace Owner

/-- Register a configuration, in place of an earlier one of the same pairing. -/
def register (o : Owner) (c : Config) : Owner :=
  { o with configs := o.configs.filter (·.pairing != c.pairing) ++ [c] }

/-- The state of an owner that has just been made. -/
def start (o : Owner) : State := { registry := Registry.empty o.hash o.options }

/-- The configurations between two types. -/
def between (o : Owner) (source destination : Ty) : List Config :=
  o.configs.filter fun c => c.pairing.source = source ∧ c.pairing.destination = destination

/-- The profiles configured between two types. -/
def profiles (o : Owner) (source destination : Ty) : List (Option String) :=
  (o.between source destination).map (·.profile)

/-- **The configuration a request chooses**: that of the very pairing, else the
unprofiled one. -/
def choose? (o : Owner) (p : Pairing) : Option Config :=
  (o.configs.find? (·.pairing == p)).or (o.configs.find? (·.pairing == p.plain))

/-- The number of type pairs with a configuration. -/
def pairCount (o : Owner) : Nat := (o.configs.map (·.pairing.plain)).eraseDups.length

/-- The dump of an owner. -/
def dump (o : Owner) (s : State) : String :=
  "Mapper \x7b pairs: " ++ toString o.pairCount ++ ", registry: " ++ s.registry.dump ++ " \x7d"

/-! ## §2. Requests -/

/-- Resolve and compile a configuration. -/
def compile (o : Owner) (c : Config) : Except BuildError Mapper × Journal :=
  let resolution := c.resolve o.schema o.defaults { pair := c.pairing.name o.schema }
  (resolution.result.map Mapper.mk, resolution.journal)

/-- Compile a configuration as the next instance. -/
def build (o : Owner) (c : Config) (r : Registry Pairing Nat) (s : Array Mapper × Journal) :
    Except BuildError Nat × Registry Pairing Nat × Array Mapper × Journal :=
  match o.compile c with
  | (.ok m, journal) => (.ok s.1.size, r, s.1.push m, s.2 ++ journal)
  | (.error e, journal) => (.error e, r, s.1, s.2 ++ journal)

/-- **A request** for the mapper of a pairing, built if it is not there yet. -/
def request (o : Owner) (p : Pairing) (t : Trail State) :
    Except BuildError Nat × Trail State :=
  match o.choose? p with
  | none => (.error (.notRegistered (p.name o.schema)), t)
  | some c =>
      let w := t.outside
      let (result, registry, mappers, journal) :=
        w.registry.getOrCreate c.pairing (w.mappers, t.journal) (o.build c)
      (result, { journal, outside := { w with registry, mappers } })

/-- The mapper of a pairing if it has been built. -/
def tryRequest (o : Owner) (p : Pairing) (s : State) : Option Nat × State :=
  match o.choose? p with
  | none => (none, s)
  | some c =>
      let (found, registry) := s.registry.tryGet c.pairing
      (found, { s with registry })

/-- The error of a nested request. -/
def nestedError : BuildError → MapError
  | .notRegistered pair => .nestedMapperMissing pair
  | e => .build e

/-- A request on behalf of a running mapper. -/
def requestNested (o : Owner) (p : Pairing) : Run (Trail State) Nat :=
  ExceptT.mk fun t =>
    let (result, t) := o.request p t
    (result.mapError nestedError, t)

/-! ## §3. Calls -/

/-- The instance of a number. -/
def mapper? (s : State) (id : Nat) : Option Mapper := s.mappers[id]?

/-- The instance of a number, during a call. -/
def mapper (id : Nat) : Run (Trail State) Mapper := do
  Run.require (mapper? (← get).outside id) .ownerDropped

/-- **The instance a nested member leads to**: along its link, or by a request
that makes the link. -/
def follow (o : Owner) (member : Nat × Nat) (p : Pairing) : Run (Trail State) Nat := do
  match (← get).outside.links.lookup member with
  | some id => return id
  | none => do
      -- Links made before the owner was let go of are still followed.
      if !(← get).outside.alive then throw .ownerDropped
      let id ← o.requestNested p
      modify fun t => { t with outside.links := (member, id) :: t.outside.links }
      return id

/-- **Nesting**, for each member of an instance, to a limited depth: the linked
mapper constructs from the value. -/
def nest (o : Owner) : (limit : Nat) → (id : Nat) → (member : Nat) → Nesting State
  | 0, _, _ => fun _ _ _ => throw .nestingTooDeep
  | limit + 1, id, member => fun p v handedOn => do
      let child ← o.follow (id, member) p
      let m ← mapper child
      m.constructAny o.schema (o.nest limit child) v handedOn

/-- Let go of the registry and of the configurations. -/
def drop (s : State) : State := { s with alive := false }

end Owner

end RecordMap
