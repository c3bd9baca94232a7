/-!
# The registry

A registry keeps at most one value for each key.  It is a power-of-two array of
buckets, each a chain of entries; a key is looked for in the bucket its hash
selects.  An entry is published at the head of its chain and never removed.
When the number of entries calls for it, the array is replaced by a larger one
and every entry is linked into that.

The hash function is part of a registry and can be any function.  Sizes are
machine words: the product of entries and growth factor saturates, and rounding
up to a power of two wraps to zero past the greatest word.
-/

namespace RecordMap

-- Powers are the built-in ones, whichever library is in scope.
attribute [local instance (high)] instPowNat

/-! ## §1. Sizing -/

/-- The greatest machine word. -/
def wordMax : Nat := 2 ^ (64 : Nat) - 1

/-- Product in a word, saturating. -/
def saturatingMul (a b : Nat) : Nat := min (a * b) wordMax

/-- The least power of two from `n` on: one past all the bits of `n - 1`. -/
def nextPow2 (n : Nat) : Nat := if n ≤ 1 then 1 else 2 ^ ((n - 1).log2 + 1)

/-- The least power of two from `n` on, in a word. -/
def roundUpPow2 (n : Nat) : Nat := nextPow2 n % (wordMax + 1)

/-- Sizing of the bucket array. -/
structure RegistryOptions where
  initialSize : Nat := 16
  growthFactor : Nat := 2
  deriving DecidableEq, Repr

namespace RegistryOptions

/-- Options of given sizes; the initial size is raised to at least one, the
growth factor to at least two. -/
def ofSizes (initialSize growthFactor : Nat) : RegistryOptions :=
  ⟨max initialSize 1, max growthFactor 2⟩

/-- The number of buckets to start with. -/
def initialCapacity (o : RegistryOptions) : Nat := roundUpPow2 o.initialSize

/-- **The number of buckets** for a number of entries. -/
def capacityFor (o : RegistryOptions) (entries : Nat) : Nat :=
  roundUpPow2 (max (saturatingMul entries o.growthFactor) o.initialSize)

/-- The dump of options. -/
def dump (o : RegistryOptions) : String :=
  "RegistryOptions \x7b initial_size: " ++ toString o.initialSize ++
    ", growth_factor: " ++ toString o.growthFactor ++ " \x7d"

end RegistryOptions

/-! ## §2. Buckets -/

/-- A published value with its key and the hash of the key. -/
structure Registry.Entry (κ α : Type) where
  key : κ
  hash : UInt64
  value : α

/-- An array of chains. -/
abbrev Registry.Buckets (κ α : Type) := Array (List (Registry.Entry κ α))

namespace Registry.Buckets

variable {κ α : Type}

/-- Buckets without entries. -/
def empty (capacity : Nat) : Buckets κ α := Array.replicate capacity []

/-- The bucket a hash selects. -/
def index (b : Buckets κ α) (hash : UInt64) : Nat := hash.toNat &&& (b.size - 1)

/-- Look for a key in the chain its hash selects. -/
def find? [DecidableEq κ] (b : Buckets κ α) (hash : UInt64) (key : κ) : Option α :=
  ((b[b.index hash]?.getD []).find? fun e => e.hash = hash ∧ e.key = key).map (·.value)

/-- Link an entry at the head of its chain. -/
def link (b : Buckets κ α) (e : Entry κ α) : Buckets κ α :=
  b.modify (b.index e.hash) (e :: ·)

/-- Link every entry of some buckets into others, chain by chain. -/
def relink (b target : Buckets κ α) : Buckets κ α :=
  b.toList.foldl (fun t chain => chain.foldl link t) target

end Registry.Buckets

/-! ## §3. Registries -/

/-- Counts of what a registry did. -/
structure RegistryStats where
  entries : Nat := 0
  capacity : Nat := 0
  /-- Lookups that found an entry. -/
  hits : Nat := 0
  /-- Lookups that found nothing. -/
  misses : Nat := 0
  /-- Values built and published. -/
  builds : Nat := 0
  /-- Builds that failed and published nothing. -/
  failures : Nat := 0
  resizes : Nat := 0
  deriving DecidableEq, Repr

namespace RegistryStats

/-- The report of the counts, one line each. -/
def report (s : RegistryStats) : String :=
  "Registry Statistics:\n" ++
  "  Entries: " ++ toString s.entries ++ " in " ++ toString s.capacity ++ " buckets\n" ++
  "  Lookups: " ++ toString s.hits ++ " hits, " ++ toString s.misses ++ " misses\n" ++
  "  Builds: " ++ toString s.builds ++ " (" ++ toString s.failures ++ " failed)\n" ++
  "  Resizes: " ++ toString s.resizes ++ "\n"

/-- The dump of the counts. -/
def dump (s : RegistryStats) : String :=
  "RegistryStats \x7b entries: " ++ toString s.entries ++
    ", capacity: " ++ toString s.capacity ++
    ", hits: " ++ toString s.hits ++
    ", misses: " ++ toString s.misses ++
    ", builds: " ++ toString s.builds ++
    ", failures: " ++ toString s.failures ++
    ", resizes: " ++ toString s.resizes ++ " \x7d"

end RegistryStats

/-- A cache of values by key. -/
structure Registry (κ α : Type) where
  hash : κ → UInt64
  options : RegistryOptions
  buckets : Registry.Buckets κ α
  /-- The number of published entries. -/
  size : Nat := 0
  hits : Nat := 0
  misses : Nat := 0
  builds : Nat := 0
  failures : Nat := 0
  resizes : Nat := 0

namespace Registry

variable {κ α τ ε : Type}

/-- A registry without entries. -/
def empty (hash : κ → UInt64) (options : RegistryOptions) : Registry κ α :=
  { hash, options, buckets := Buckets.empty options.initialCapacity }

/-- The number of buckets. -/
def capacity (r : Registry κ α) : Nat := r.buckets.size

/-- There are no entries. -/
def isEmpty (r : Registry κ α) : Bool := r.size == 0

/-- The counts so far. -/
def stats (r : Registry κ α) : RegistryStats :=
  { entries := r.size, capacity := r.capacity, hits := r.hits, misses := r.misses
    builds := r.builds, failures := r.failures, resizes := r.resizes }

/-- The dump of a registry. -/
def dump (r : Registry κ α) : String :=
  "TypePairRegistry \x7b stats: " ++ r.stats.dump ++ " \x7d"

/-- The value published under a key; nothing is counted. -/
def find? [DecidableEq κ] (r : Registry κ α) (key : κ) : Option α :=
  r.buckets.find? (r.hash key) key

/-- **Lookup**, counted as a hit or a miss. -/
def tryGet [DecidableEq κ] (r : Registry κ α) (key : κ) : Option α × Registry κ α :=
  match r.find? key with
  | some a => (some a, { r with hits := r.hits + 1 })
  | none => (none, { r with misses := r.misses + 1 })

/-- Publish a value under a key that has none, growing the array if need be. -/
def publish (r : Registry κ α) (key : κ) (value : α) : Registry κ α :=
  let entry : Entry κ α := { key, hash := r.hash key, value }
  let wanted := r.options.capacityFor (r.size + 1)
  if r.capacity < wanted then
    { r with
      buckets := (r.buckets.relink (Buckets.empty wanted)).link entry
      size := r.size + 1, builds := r.builds + 1, resizes := r.resizes + 1 }
  else
    { r with
      buckets := r.buckets.link entry
      size := r.size + 1, builds := r.builds + 1 }

/-- **Lookup with a build** of what is missing.  The build runs only if the lookup
misses, and may itself look things up; a failed build publishes nothing.  A
state of the caller is threaded through the build. -/
def getOrCreate [DecidableEq κ] (r : Registry κ α) (key : κ) (s : τ)
    (build : Registry κ α → τ → Except ε α × Registry κ α × τ) :
    Except ε α × Registry κ α × τ :=
  match r.tryGet key with
  | (some a, r) => (.ok a, r, s)
  | (none, r) =>
      -- Nothing is published for a failed build; the next request tries again.
      match build r s with
      | (.ok a, r, s) => (.ok a, r.publish key a, s)
      | (.error e, r, s) => (.error e, { r with failures := r.failures + 1 }, s)

end Registry

end RecordMap
