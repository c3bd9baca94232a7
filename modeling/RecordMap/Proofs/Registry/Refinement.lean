import Mathlib.Data.List.Induction
import RecordMap.Proofs.Registry.Buckets
import RecordMap.Proofs.Registry.Sizing

/-!
# A registry is a map

Seen from outside, a registry is used by looking keys up and by creating what is
missing.  Whatever its hash function, it answers every use as the map would in
which a key has the value of its first creation whose build succeeded
(`Registry.firstBuilt`).

`Registry.History` keeps, beside a registry in use, what an onlooker has seen: the
lookups made, those that found nothing, and the changes of capacity.  One use
keeps the entries linked, the lookups those of the map, the capacity the least
power of two there is room in, and the counters in step with what was seen
(`History.Sound.extend`); by induction so does any sequence of uses
(`History.sound_after`).
-/

namespace RecordMap.Registry

-- Powers are the built-in ones, whichever library is in scope.
attribute [local instance (high)] instPowNat

/-! ## §1. Uses -/

/-- One use of a registry. -/
inductive Use (κ α ε : Type) where
  | tryGet (key : κ)
  /-- The build looks some keys up on its way to its result. -/
  | getOrCreate (key : κ) (peeks : List κ) (result : Except ε α)

/-- What a use gives. -/
inductive Answer (α ε : Type) where
  | found (a : Option α)
  /-- With what the build found on its way, if it ran. -/
  | created (result : Except ε α) (build : Option (List (Option α)))

namespace Answer

variable {α ε : Type}

/-- The results of all lookups that came to an end without a build of their own. -/
def lone : Answer α ε → List (Option α)
  | found a => [a]
  | created _ build => build.getD []

/-- The number of lookups made. -/
def lookups : Answer α ε → Nat
  | found _ => 1
  | created _ build => 1 + (build.getD []).length

end Answer

variable {κ α ε : Type} [DecidableEq κ]

/-- Look several keys up, in order. -/
def tryAll : Registry κ α → List κ → List (Option α) × Registry κ α
  | r, [] => ([], r)
  | r, key :: rest =>
      let (a, r) := r.tryGet key
      let (as, r) := tryAll r rest
      (a :: as, r)

/-- **Using a registry.** -/
def perform (r : Registry κ α) : Use κ α ε → Answer α ε × Registry κ α
  | .tryGet key =>
      let (a, r) := r.tryGet key
      (.found a, r)
  | .getOrCreate key peeks result =>
      let (result, r, build) := r.getOrCreate key none fun r _ =>
        let (as, r) := r.tryAll peeks
        (result, r, some as)
      (.created result build, r)

/-! ## §2. The map -/

/-- The value a use makes for a key, if the key has none. -/
def Use.makes (key : κ) : Use κ α ε → Option α
  | .getOrCreate k _ (.ok a) => if k = key then some a else none
  | _ => none

/-- **The map**: a key has the value of its first creation whose build succeeds. -/
def firstBuilt (uses : List (Use κ α ε)) (key : κ) : Option α := uses.findSome? (·.makes key)

/-- The answer of a map: lookups give what there is, and a build is run for a key
that has no value. -/
def Use.answer (values : κ → Option α) : Use κ α ε → Answer α ε
  | .tryGet key => .found (values key)
  | .getOrCreate key peeks result =>
      match values key with
      | some a => .created (.ok a) none
      | none => .created result (some (peeks.map values))

theorem firstBuilt_append (uses : List (Use κ α ε)) (u : Use κ α ε) (key : κ) :
    firstBuilt (uses ++ [u]) key = (firstBuilt uses key).or (u.makes key) := by
  unfold firstBuilt
  rw [List.findSome?_append]
  congr 1
  cases hmakes : u.makes key with
  | none => simp [hmakes]
  | some a => simp [hmakes]

/-- A creation makes nothing of a key that has a value. -/
theorem Use.or_makes_of_found {values : κ → Option α} {key : κ} {a : α} (h : values key = some a)
    (peeks : List κ) (result : Except ε α) :
    (fun k => (values k).or ((Use.getOrCreate key peeks result).makes k)) = values := by
  funext k
  by_cases hk : key = k
  · rw [← hk, h, Option.some_or]
  · cases result <;> simp [Use.makes, hk]

/-- A creation gives its value to a key that has none. -/
theorem Use.or_makes_of_built {values : κ → Option α} {key : κ} (h : values key = none)
    (peeks : List κ) (a : α) :
    (fun k => (values k).or ((Use.getOrCreate key peeks (.ok a) : Use κ α ε).makes k)) =
      fun k => if k = key then some a else values k := by
  funext k
  by_cases hk : k = key
  · simp [Use.makes, hk, h]
  · simp [Use.makes, hk, Ne.symm hk]

/-- Neither a lookup nor a build that fails makes anything. -/
theorem Use.or_makes_of_none {u : Use κ α ε} (values : κ → Option α)
    (h : ∀ key, u.makes key = none) : (fun k => (values k).or (u.makes k)) = values := by
  funext k
  rw [h, Option.or_none]

/-! ## §3. Equations of uses -/

/-- The registry with some more hits and misses. -/
def count (r : Registry κ α) (hits misses : Nat) : Registry κ α :=
  { r with hits := r.hits + hits, misses := r.misses + misses }

omit [DecidableEq κ] in
theorem count_count (r : Registry κ α) (h m h' m' : Nat) :
    (r.count h m).count h' m' = r.count (h + h') (m + m') := by
  simp [count, Nat.add_assoc]

/-- A lookup is counted by what it finds. -/
theorem tryGet_eq (r : Registry κ α) (key : κ) :
    r.tryGet key = (r.find? key,
      r.count (if (r.find? key).isSome then 1 else 0) (if (r.find? key).isSome then 0 else 1)) := by
  unfold tryGet
  cases r.find? key <;> rfl

theorem tryAll_eq (r : Registry κ α) (keys : List κ) :
    r.tryAll keys = (keys.map r.find?,
      r.count ((keys.map r.find?).countP (·.isSome)) ((keys.map r.find?).countP (·.isNone))) := by
  induction keys generalizing r with
  | nil => rfl
  | cons key rest ih =>
    -- Counting does not change what is found.
    have hcounted : ∀ h m, (r.count h m).find? = r.find? := fun _ _ => rfl
    simp only [tryAll, tryGet_eq, ih, hcounted, count_count, List.map_cons, List.countP_cons]
    cases r.find? key <;> simp [Nat.add_comm]

/-- A creation of a key that has a value is a hit. -/
theorem perform_of_found {r : Registry κ α} {key : κ} {a : α} (h : r.find? key = some a)
    (peeks : List κ) (result : Except ε α) :
    r.perform (.getOrCreate key peeks result) = (.created (.ok a) none, r.count 1 0) := by
  simp [perform, getOrCreate, tryGet_eq, h]

/-- The registry a build leaves: a miss, and the lookups of the build. -/
def searched (r : Registry κ α) (peeks : List κ) : Registry κ α :=
  r.count ((peeks.map r.find?).countP (·.isSome)) (1 + (peeks.map r.find?).countP (·.isNone))

theorem tryAll_missed (r : Registry κ α) (peeks : List κ) :
    (r.count 0 1).tryAll peeks = (peeks.map r.find?, r.searched peeks) := by
  have hcounted : (r.count 0 1).find? = r.find? := rfl
  rw [tryAll_eq, hcounted, count_count, Nat.zero_add]
  rfl

theorem perform_of_failed {r : Registry κ α} {key : κ} (h : r.find? key = none) (peeks : List κ)
    (e : ε) :
    r.perform (.getOrCreate key peeks (.error e)) =
      (.created (.error e) (some (peeks.map r.find?)),
        { r.searched peeks with failures := r.failures + 1 }) := by
  simp only [perform, getOrCreate, tryGet_eq, h, tryAll_missed, Option.isSome_none,
    Bool.false_eq_true, if_false]
  rfl

theorem perform_of_built {r : Registry κ α} {key : κ} (h : r.find? key = none) (peeks : List κ)
    (a : α) :
    r.perform (.getOrCreate key peeks (.ok a) : Use κ α ε) =
      (.created (.ok a) (some (peeks.map r.find?)), (r.searched peeks).publish key a) := by
  simp only [perform, getOrCreate, tryGet_eq, h, tryAll_missed, Option.isSome_none,
    Bool.false_eq_true, if_false]

omit [DecidableEq κ] in
/-- Counting leaves the entries alone. -/
theorem Linked.count {r : Registry κ α} (h : r.Linked) (hits misses : Nat) :
    (r.count hits misses).Linked :=
  ⟨h.ranged, h.placed, h.distinct, h.size⟩

omit [DecidableEq κ] in
/-- **The capacity stays the least with room** for one more entry: the array grows just
when the new number of entries calls for more. -/
theorem leastPow2_capacity_publish {r : Registry κ α}
    (hoptions : r.options.initialSize ≤ 2 ^ (63 : Nat))
    (hroom : (r.size + 1) * r.options.growthFactor ≤ 2 ^ (63 : Nat))
    (h : LeastPow2 (max r.options.initialSize (r.size * r.options.growthFactor)) r.capacity)
    (key : κ) (a : α) :
    LeastPow2 (max r.options.initialSize ((r.size + 1) * r.options.growthFactor))
      (r.publish key a).capacity := by
  have hless : r.size * r.options.growthFactor ≤ (r.size + 1) * r.options.growthFactor :=
    Nat.mul_le_mul_right _ (by omega)
  have hwanted := RegistryOptions.leastPow2_capacityFor hoptions hroom
  have hgrows := h.mono hwanted (by omega)
  rw [capacity_publish, Nat.max_eq_right hgrows]
  exact hwanted

/-- **Every answer is that of the map** of what is found in the registry. -/
theorem answer_perform (r : Registry κ α) (u : Use κ α ε) :
    (r.perform u).1 = u.answer r.find? := by
  cases u with
  | tryGet key => simp [perform, tryGet_eq, Use.answer]
  | getOrCreate key peeks result =>
    cases hfound : r.find? key with
    | some a => simp [perform_of_found hfound, Use.answer, hfound]
    | none =>
      cases result with
      | error e => simp [perform_of_failed hfound, Use.answer, hfound]
      | ok a => simp [perform_of_built hfound, Use.answer, hfound]

/-! ## §4. Histories -/

/-- A registry in use, with what an onlooker has seen of it. -/
structure History (κ α : Type) where
  registry : Registry κ α
  lookups : Nat := 0
  /-- Lookups that found nothing and did not go on to a build of the key. -/
  vain : Nat := 0
  /-- Changes of capacity. -/
  changes : Nat := 0

namespace History

/-- The history once the registry has changed, with so many lookups more. -/
def record (h : History κ α) (r : Registry κ α) (lookups vain : Nat) : History κ α where
  registry := r
  lookups := h.lookups + lookups
  vain := h.vain + vain
  changes := h.changes + if r.capacity = h.registry.capacity then 0 else 1

/-- One more use. -/
def extend (h : History κ α) (u : Use κ α ε) : History κ α :=
  let (answer, r) := h.registry.perform u
  h.record r answer.lookups (answer.lone.countP (·.isNone))

/-- **A history of uses**, from an empty registry on. -/
def after (hash : κ → UInt64) (options : RegistryOptions) (uses : List (Use κ α ε)) :
    History κ α :=
  uses.foldl extend { registry := Registry.empty hash options }

/-- **What holds of every history** of a registry that is used as a map. -/
structure Sound (hash : κ → UInt64) (options : RegistryOptions) (values : κ → Option α)
    (h : History κ α) : Prop where
  sameHash : h.registry.hash = hash
  sameOptions : h.registry.options = options
  linked : h.registry.Linked
  found : h.registry.find? = values
  sized : h.registry.size * options.growthFactor ≤ 2 ^ (63 : Nat) →
    LeastPow2 (max options.initialSize (h.registry.size * options.growthFactor)) h.registry.capacity
  builds : h.registry.builds = h.registry.size
  lookups : h.registry.hits + h.registry.misses = h.lookups
  misses : h.registry.misses = h.registry.builds + h.registry.failures + h.vain
  resizes : h.registry.resizes = h.changes

variable {hash : κ → UInt64} {options : RegistryOptions} {values : κ → Option α} {h : History κ α}

theorem sound_start (hash : κ → UInt64) (hoptions : options.initialSize ≤ 2 ^ (63 : Nat)) :
    Sound hash options (fun _ => none)
      ({ registry := Registry.empty hash options } : History κ α) := by
  have hleast := RegistryOptions.leastPow2_initialCapacity hoptions
  have hpos : 0 < options.initialCapacity := by
    obtain ⟨k, hk⟩ := hleast.power
    rw [hk]
    exact Nat.two_pow_pos k
  have hlinked : (Registry.empty hash options : Registry κ α).Linked := linked_empty hash hpos
  refine ⟨rfl, rfl, hlinked, ?_, ?_, rfl, rfl, rfl, rfl⟩
  · funext key
    cases hfind : (Registry.empty hash options : Registry κ α).find? key with
    | none => rfl
    | some a =>
      obtain ⟨e, he, _⟩ := hlinked.find?_eq_some_iff.mp hfind
      simp [Registry.empty, Registry.entries] at he
  · intro _
    simpa [Registry.empty, Registry.capacity] using hleast

/-- **A use that publishes nothing** keeps a history sound, if it is counted as it
is seen. -/
theorem Sound.counted (hs : Sound hash options values h) (hits misses failures : Nat)
    {lookups vain : Nat} (hlookups : lookups = hits + misses) (hmisses : misses = failures + vain) :
    Sound hash options values (h.record
      { h.registry.count hits misses with failures := h.registry.failures + failures }
      lookups vain) := by
  have hseen := hs.lookups
  have hvain := hs.misses
  refine ⟨hs.sameHash, hs.sameOptions, ?_, hs.found, hs.sized, hs.builds, ?_, ?_, ?_⟩
  · exact ⟨hs.linked.ranged, hs.linked.placed, hs.linked.distinct, hs.linked.size⟩
  · simp only [record, count]
    omega
  · simp only [record, count]
    omega
  · exact hs.resizes.trans (by simp [record, capacity, count])

/-- **A use that publishes a value** keeps a history sound. -/
theorem Sound.published (hs : Sound hash options values h) {key : κ} (hnew : values key = none)
    (a : α) {hits misses lookups vain : Nat} (hoptions : options.initialSize ≤ 2 ^ (63 : Nat))
    (hlookups : lookups = hits + misses) (hmisses : misses = 1 + vain) :
    Sound hash options (fun k => if k = key then some a else values k)
      (h.record ((h.registry.count hits misses).publish key a) lookups vain) := by
  have hlinked := hs.linked.count hits misses
  have hfresh : (h.registry.count hits misses).find? key = none := by
    show h.registry.find? key = none
    rw [hs.found, hnew]
  have hseen := hs.lookups
  have hvain := hs.misses
  have hbuilds := hs.builds
  constructor
  case sameHash =>
    simp only [record, publish_eq]
    exact hs.sameHash
  case sameOptions =>
    simp only [record, publish_eq]
    exact hs.sameOptions
  case linked => exact hlinked.publish hfresh a
  case found =>
    funext k
    show ((h.registry.count hits misses).publish key a).find? k = _
    rw [hlinked.find?_publish hfresh, ← hs.found]
    rfl
  case sized =>
    have hsize : (h.record ((h.registry.count hits misses).publish key a) lookups
        vain).registry.size = h.registry.size + 1 := by
      simp only [record, publish_eq]
      rfl
    obtain rfl := hs.sameOptions
    rw [hsize]
    intro hroom
    have hless : h.registry.size * h.registry.options.growthFactor ≤
        (h.registry.size + 1) * h.registry.options.growthFactor :=
      Nat.mul_le_mul_right _ (by omega)
    have hold := hs.sized (by omega)
    exact leastPow2_capacity_publish (r := h.registry.count hits misses) hoptions hroom hold key a
  case builds =>
    simp only [record, publish_eq, count]
    omega
  case lookups =>
    simp only [record, publish_eq, count]
    omega
  case misses =>
    simp only [record, publish_eq, count]
    omega
  case resizes =>
    show ((h.registry.count hits misses).publish key a).resizes = _
    rw [resizes_publish]
    show h.registry.resizes + _ = h.changes + _
    rw [hs.resizes]
    rfl

omit [DecidableEq κ] in
theorem length_eq_isSome_add_isNone (as : List (Option α)) :
    as.length = as.countP (·.isSome) + as.countP (·.isNone) := by
  rw [List.length_eq_countP_add_countP (·.isSome)]
  congr 2
  funext a
  cases a <;> rfl

/-- **One use** keeps a history sound, and makes what the map says it makes. -/
theorem Sound.extend (hs : Sound hash options values h)
    (hoptions : options.initialSize ≤ 2 ^ (63 : Nat)) (u : Use κ α ε) :
    Sound hash options (fun key => (values key).or (u.makes key)) (h.extend u) := by
  unfold History.extend
  cases u with
  | tryGet key =>
    have hperform : h.registry.perform (.tryGet key : Use κ α ε) =
        (.found (h.registry.find? key), h.registry.count
          (if (h.registry.find? key).isSome then 1 else 0)
          (if (h.registry.find? key).isSome then 0 else 1)) := by
      simp [perform, tryGet_eq]
    rw [Use.or_makes_of_none values fun _ => rfl, hperform]
    cases h.registry.find? key with
    | some a => exact hs.counted 1 0 0 rfl rfl
    | none => exact hs.counted 0 1 0 rfl rfl
  | getOrCreate key peeks result =>
    cases hfound : h.registry.find? key with
    | some a =>
      have hkey : values key = some a := by rw [← hs.found, hfound]
      rw [Use.or_makes_of_found hkey, perform_of_found hfound]
      exact hs.counted 1 0 0 rfl rfl
    | none =>
      have hkey : values key = none := by rw [← hs.found, hfound]
      have hlength : (peeks.map h.registry.find?).length = _ := length_eq_isSome_add_isNone _
      cases result with
      | error e =>
        rw [Use.or_makes_of_none values fun _ => rfl, perform_of_failed hfound]
        refine hs.counted _ _ 1 ?_ rfl
        simp only [Answer.lookups, Option.getD_some]
        omega
      | ok a =>
        rw [Use.or_makes_of_built hkey, perform_of_built hfound]
        refine hs.published hkey a hoptions ?_ rfl
        simp only [Answer.lookups, Option.getD_some]
        omega

/-- **Every history is sound.** -/
theorem sound_after (hash : κ → UInt64) (hoptions : options.initialSize ≤ 2 ^ (63 : Nat))
    (uses : List (Use κ α ε)) :
    Sound hash options (firstBuilt uses) (after hash options uses) := by
  -- By induction on the last use.
  induction uses using List.reverseRecOn with
  | nil => exact sound_start hash hoptions
  | append_singleton uses u ih =>
    have hvalues : firstBuilt (uses ++ [u]) =
        fun key => (firstBuilt uses key).or (u.makes key) := by
      funext key
      exact firstBuilt_append uses u key
    have hafter : after hash options (uses ++ [u]) = (after hash options uses).extend u := by
      unfold after
      rw [List.foldl_append]
      rfl
    rw [hvalues, hafter]
    exact ih.extend hoptions u

end History

/-! ## §5. The registry as a map -/

/-- **A registry refines a map**, for every hash function, after any uses.  The next
use is answered as by the map, and a build that fails publishes nothing.  Every
entry is linked exactly once, in the bucket that its hash selects, under a key of
its own; the capacity is the least power of two with room for the entries; and the
counters say what an onlooker has seen. -/
theorem refines_map (hash : κ → UInt64) (options : RegistryOptions) (uses : List (Use κ α ε))
    (hinitial : options.initialSize ≤ 2 ^ (63 : Nat))
    (hroom : (History.after hash options uses).registry.size * options.growthFactor ≤
      2 ^ (63 : Nat)) :
    let h := History.after hash options uses
    let r := h.registry
    (∀ u : Use κ α ε, (r.perform u).1 = u.answer (firstBuilt uses)) ∧
    (∀ key peeks (e : ε), (r.perform (.getOrCreate key peeks (.error e))).2.buckets = r.buckets) ∧
    ((r.entries.map (·.key)).Nodup ∧
      (∀ key a, (∃ e ∈ r.entries, e.key = key ∧ e.value = a) ↔ firstBuilt uses key = some a)) ∧
    (∀ (i : Nat) (chain : List (Entry κ α)), r.buckets[i]? = some chain → ∀ e ∈ chain,
      e.hash = hash e.key ∧ r.buckets.index e.hash = i) ∧
    (∀ word, r.buckets.index word < r.capacity) ∧
    LeastPow2 (max options.initialSize (r.size * options.growthFactor)) r.capacity ∧
    (r.builds = r.size ∧ r.size = r.entries.length ∧ r.hits + r.misses = h.lookups ∧
      r.misses = r.builds + r.failures + h.vain ∧ r.resizes = h.changes) := by
  intro h r
  have hs : History.Sound hash options (firstBuilt uses) h := History.sound_after hash hinitial uses
  refine ⟨?_, ?_, ⟨hs.linked.distinct, ?_⟩, ?_, ?_, hs.sized hroom, hs.builds, hs.linked.size,
    hs.lookups, hs.misses, hs.resizes⟩
  · intro u
    rw [answer_perform, hs.found]
  · intro key peeks e
    cases hfound : r.find? key with
    | some a => rw [perform_of_found hfound]; rfl
    | none => rw [perform_of_failed hfound]; rfl
  · intro key a
    rw [← hs.found]
    exact hs.linked.find?_eq_some_iff.symm
  · intro i chain hchain e he
    refine ⟨?_, hs.linked.placed.chained i chain hchain e he⟩
    rw [← hs.sameHash]
    exact hs.linked.placed.hashed e (Buckets.mem_entries_iff.mpr ⟨i, chain, hchain, he⟩)
  · intro word
    exact Buckets.index_lt hs.linked.ranged word

/-- Uses with a build that fails and one that looks another key up. -/
def collidingUses : List (Use Nat Nat String) :=
  [.getOrCreate 1 [1] (.error "none"), .getOrCreate 1 [] (.ok 10), .getOrCreate 2 [1] (.ok 20),
    .tryGet 3]

/-- Their history from a single bucket on, with one hash for all keys. -/
def collidingHistory : History Nat Nat :=
  History.after (fun _ => 0) { initialSize := 1 } collidingUses

/-- Keys of one hash are kept apart, and the array grows from one bucket to four. -/
theorem refines_map_colliding :
    (1 : Nat) ≤ 2 ^ (63 : Nat) ∧ collidingHistory.registry.size * 2 ≤ 2 ^ (63 : Nat) ∧
      (collidingHistory.registry.perform (.getOrCreate 1 [] (.ok 30) : Use Nat Nat String)).1 =
        .created (.ok 10) none ∧
      (collidingHistory.registry.perform (.tryGet 2 : Use Nat Nat String)).1 = .found (some 20) ∧
      LeastPow2 4 collidingHistory.registry.capacity ∧ collidingHistory.registry.resizes = 2 := by
  have hsize : collidingHistory.registry.size = 2 := by decide +kernel
  have hchanges : collidingHistory.changes = 2 := by decide +kernel
  have hroom : collidingHistory.registry.size * 2 ≤ 2 ^ (63 : Nat) := by
    rw [hsize]
    decide
  have hmap := refines_map (fun _ => 0) { initialSize := 1 } collidingUses (by decide) hroom
  obtain ⟨hanswers, _, _, _, _, hcapacity, _, _, _, _, hresizes⟩ := hmap
  have hcreated := hanswers (.getOrCreate 1 [] (.ok 30))
  have hfound := hanswers (.tryGet 2)
  have hneed : max 1 (collidingHistory.registry.size * 2) = 4 := by
    rw [hsize]
    rfl
  have hleast : LeastPow2 4 collidingHistory.registry.capacity := by
    rw [← hneed]
    exact hcapacity
  exact ⟨by decide, hroom, hcreated, hfound, hleast, hresizes.trans hchanges⟩

end RecordMap.Registry
