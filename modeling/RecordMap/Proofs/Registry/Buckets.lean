import Mathlib.Data.List.Nodup
import RecordMap.Registry

/-!
# Chains of entries

The entries of a registry lie in chains, one for each bucket.  Every entry is in
the chain that its hash selects, and no two entries have the same key
(`Registry.Linked`).  Linking one more entry keeps this, and so does moving all
of them into another array, where the same hashes select other chains.

A lookup searches a single chain.  Because of where the entries lie this finds
what a search of all of them would find (`Registry.Linked.find?_eq_some_iff`), so
that publishing a value changes the lookup of its own key only
(`Registry.Linked.find?_publish`).
-/

namespace RecordMap.Registry

variable {κ α : Type}

/-! ## §1. Buckets -/

namespace Buckets

variable {b target : Buckets κ α} {e : Entry κ α}

/-- All entries, chain by chain. -/
def entries (b : Buckets κ α) : List (Entry κ α) := b.toList.flatten

theorem mem_entries_iff :
    e ∈ b.entries ↔ ∃ (i : Nat) (chain : List (Entry κ α)), b[i]? = some chain ∧ e ∈ chain := by
  unfold entries
  rw [List.mem_flatten]
  constructor
  · rintro ⟨chain, hchain, he⟩
    obtain ⟨i, hi⟩ := List.mem_iff_getElem?.mp hchain
    rw [Array.getElem?_toList] at hi
    exact ⟨i, chain, hi, he⟩
  · rintro ⟨i, chain, hi, he⟩
    exact ⟨chain, Array.mem_toList_iff.mpr (Array.mem_of_getElem? hi), he⟩

/-- A bucket is selected by the low bits of a hash. -/
theorem index_lt (h : 0 < b.size) (hash : UInt64) : b.index hash < b.size := by
  have : b.index hash ≤ b.size - 1 := Nat.and_le_right
  omega

@[simp] theorem size_empty (capacity : Nat) : (empty capacity : Buckets κ α).size = capacity :=
  Array.size_replicate

@[simp] theorem entries_empty (capacity : Nat) : (empty capacity : Buckets κ α).entries = [] := by
  simp [entries, empty]

@[simp] theorem size_link (b : Buckets κ α) (e : Entry κ α) : (b.link e).size = b.size :=
  Array.size_modify

@[simp] theorem index_link (b : Buckets κ α) (e : Entry κ α) (hash : UInt64) :
    (b.link e).index hash = b.index hash := by
  simp [index]

/-- The chain at the head of which an entry is put has one entry more. -/
theorem flatten_modify {β : Type} (chains : List (List β)) (a : β) {i : Nat}
    (hi : i < chains.length) : (chains.modify i (a :: ·)).flatten.Perm (a :: chains.flatten) := by
  induction chains generalizing i with
  | nil => simp at hi
  | cons chain rest ih =>
    cases i with
    | zero => simp
    | succ i =>
      simp only [List.length_cons, Nat.add_lt_add_iff_right] at hi
      simp only [List.modify_succ_cons, List.flatten_cons]
      exact ((ih hi).append_left chain).trans List.perm_middle

theorem entries_link (h : 0 < b.size) (e : Entry κ α) :
    (b.link e).entries.Perm (e :: b.entries) := by
  unfold entries link
  rw [Array.toList_modify]
  apply flatten_modify
  exact index_lt h e.hash

/-- **Every entry lies in the chain that its hash selects.** -/
structure Placed (hash : κ → UInt64) (b : Buckets κ α) : Prop where
  hashed : ∀ e ∈ b.entries, e.hash = hash e.key
  chained : ∀ (i : Nat) (chain : List (Entry κ α)), b[i]? = some chain →
    ∀ e ∈ chain, b.index e.hash = i

variable {hash : κ → UInt64}

theorem placed_empty (hash : κ → UInt64) (capacity : Nat) :
    (empty capacity : Buckets κ α).Placed hash := by
  have hnone : ∀ e, e ∉ (empty capacity : Buckets κ α).entries := by simp
  refine ⟨fun e he => absurd he (hnone e), ?_⟩
  intro i chain hchain e he
  exact absurd (mem_entries_iff.mpr ⟨i, chain, hchain, he⟩) (hnone e)

theorem Placed.link (hb : b.Placed hash) (h : 0 < b.size) (he : e.hash = hash e.key) :
    (b.link e).Placed hash := by
  constructor
  · intro e' he'
    rcases List.mem_cons.mp ((entries_link h e).mem_iff.mp he') with rfl | hold
    · exact he
    · exact hb.hashed e' hold
  · intro i chain hchain e' he'
    rw [index_link]
    unfold Buckets.link at hchain
    rw [Array.getElem?_modify] at hchain
    by_cases hi : b.index e.hash = i
    -- The chain with the new entry at its head.
    · rw [if_pos hi] at hchain
      obtain ⟨old, hold, rfl⟩ := Option.map_eq_some_iff.mp hchain
      rcases List.mem_cons.mp he' with rfl | hmem
      · exact hi
      · exact hb.chained i old hold e' hmem
    · rw [if_neg hi] at hchain
      exact hb.chained i chain hchain e' he'

/-! ## §2. Moving entries -/

/-- Entries are moved one by one, whichever chain they come from. -/
theorem relink_eq (b target : Buckets κ α) : b.relink target = b.entries.foldl link target :=
  List.foldl_flatten.symm

theorem size_foldl_link (es : List (Entry κ α)) (target : Buckets κ α) :
    (es.foldl link target).size = target.size := by
  induction es generalizing target with
  | nil => rfl
  | cons e rest ih => rw [List.foldl_cons, ih, size_link]

@[simp] theorem size_relink (b target : Buckets κ α) : (b.relink target).size = target.size := by
  rw [relink_eq, size_foldl_link]

theorem entries_foldl_link (h : 0 < target.size) (es : List (Entry κ α)) :
    (es.foldl link target).entries.Perm (es ++ target.entries) := by
  induction es generalizing target with
  | nil => exact .refl _
  | cons e rest ih =>
    have hlink : 0 < (target.link e).size := by rwa [size_link]
    refine (ih hlink).trans (((entries_link h e).append_left rest).trans ?_)
    exact List.perm_middle

/-- **Moving loses nothing and makes up nothing.** -/
theorem entries_relink {capacity : Nat} (h : 0 < capacity) (b : Buckets κ α) :
    (b.relink (empty capacity)).entries.Perm b.entries := by
  have hempty : 0 < (empty capacity : Buckets κ α).size := by simpa using h
  have hmoved := entries_foldl_link hempty b.entries
  rwa [← relink_eq, entries_empty, List.append_nil] at hmoved

theorem Placed.foldl_link (ht : target.Placed hash) (h : 0 < target.size) {es : List (Entry κ α)}
    (hes : ∀ e ∈ es, e.hash = hash e.key) : (es.foldl Buckets.link target).Placed hash := by
  induction es generalizing target with
  | nil => exact ht
  | cons e rest ih =>
    refine ih (ht.link h (hes e (by simp))) (by rwa [size_link]) ?_
    intro e' he'
    exact hes e' (List.mem_cons_of_mem _ he')

theorem Placed.relink (hb : b.Placed hash) {capacity : Nat} (h : 0 < capacity) :
    (b.relink (empty capacity)).Placed hash := by
  rw [relink_eq]
  exact (placed_empty hash capacity).foldl_link (by simpa using h) hb.hashed

/-! ## §3. Searching -/

/-- **A search of one chain** finds what a search of all entries would. -/
theorem find?_eq_some_iff [DecidableEq κ] (hb : b.Placed hash)
    (hdistinct : (b.entries.map (·.key)).Nodup) {key : κ} {a : α} :
    b.find? (hash key) key = some a ↔ ∃ e ∈ b.entries, e.key = key ∧ e.value = a := by
  unfold find?
  constructor
  · intro h
    obtain ⟨e, hfound, rfl⟩ := Option.map_eq_some_iff.mp h
    have hkey : e.hash = hash key ∧ e.key = key := by simpa using List.find?_some hfound
    have hmem := List.mem_of_find?_eq_some hfound
    cases hchain : b[b.index (hash key)]? with
    | none =>
      rw [hchain] at hmem
      cases hmem
    | some chain =>
      rw [hchain] at hmem
      exact ⟨e, mem_entries_iff.mpr ⟨_, chain, hchain, hmem⟩, hkey.2, rfl⟩
  · rintro ⟨e, he, rfl, rfl⟩
    have hhash := hb.hashed e he
    obtain ⟨i, chain, hchain, hmem⟩ := mem_entries_iff.mp he
    have hi : b.index (hash e.key) = i := by rw [← hhash, hb.chained i chain hchain e hmem]
    rw [hi, hchain, Option.getD_some]
    -- Something is found, and only one entry has the key.
    cases hfound : chain.find? fun e' => e'.hash = hash e.key ∧ e'.key = e.key with
    | none => exact absurd (List.find?_eq_none.mp hfound e hmem) (by simp [hhash])
    | some e' =>
      have hkey : e'.hash = hash e.key ∧ e'.key = e.key := by simpa using List.find?_some hfound
      have he' := mem_entries_iff.mpr ⟨i, chain, hchain, List.mem_of_find?_eq_some hfound⟩
      rw [List.inj_on_of_nodup_map hdistinct he' he hkey.2]
      rfl

end Buckets

/-! ## §4. Registries -/

/-- The published entries, chain by chain. -/
def entries (r : Registry κ α) : List (Entry κ α) := r.buckets.entries

/-- **Every entry is linked exactly once**, in the chain that its hash selects, and
is the only one of its key. -/
structure Linked (r : Registry κ α) : Prop where
  ranged : 0 < r.capacity
  placed : r.buckets.Placed r.hash
  distinct : (r.entries.map (·.key)).Nodup
  size : r.size = r.entries.length

variable {r : Registry κ α} {key : κ} {a : α}

theorem linked_empty (hash : κ → UInt64) {options : RegistryOptions}
    (h : 0 < options.initialCapacity) : (empty hash options : Registry κ α).Linked := by
  refine ⟨?_, Buckets.placed_empty hash _, ?_, ?_⟩
  · simpa [empty, capacity] using h
  · simp [empty, entries]
  · simp [empty, entries]

/-- The array a new entry is linked into: the present one, or a larger one with the
same entries. -/
def prepared (r : Registry κ α) : Buckets κ α :=
  if r.capacity < r.options.capacityFor (r.size + 1) then
    r.buckets.relink (Buckets.empty (r.options.capacityFor (r.size + 1)))
  else r.buckets

theorem capacity_prepared (r : Registry κ α) :
    r.prepared.size = max r.capacity (r.options.capacityFor (r.size + 1)) := by
  unfold prepared
  split
  · rw [Buckets.size_relink, Buckets.size_empty]
    omega
  · show r.capacity = _
    omega

/-- **Publishing** links the new entry into the prepared array, and counts. -/
theorem publish_eq (r : Registry κ α) (key : κ) (a : α) :
    r.publish key a = { r with
      buckets := r.prepared.link { key, hash := r.hash key, value := a }
      size := r.size + 1, builds := r.builds + 1
      resizes := if r.capacity < r.options.capacityFor (r.size + 1) then r.resizes + 1
        else r.resizes } := by
  unfold publish prepared
  dsimp only
  split
  · rfl
  · rfl

theorem capacity_publish (r : Registry κ α) (key : κ) (a : α) :
    (r.publish key a).capacity = max r.capacity (r.options.capacityFor (r.size + 1)) := by
  rw [publish_eq]
  show (r.prepared.link _).size = _
  rw [Buckets.size_link, capacity_prepared]

/-- A resize is counted whenever the capacity changes. -/
theorem resizes_publish (r : Registry κ α) (key : κ) (a : α) :
    (r.publish key a).resizes =
      r.resizes + if (r.publish key a).capacity = r.capacity then 0 else 1 := by
  rw [capacity_publish, publish_eq]
  dsimp only
  by_cases h : r.capacity < r.options.capacityFor (r.size + 1)
  · rw [if_pos h, if_neg (by omega)]
  · rw [if_neg h, if_pos (by omega)]
    rfl

namespace Linked

theorem prepared (h : r.Linked) :
    r.prepared.Placed r.hash ∧ r.prepared.entries.Perm r.entries := by
  unfold Registry.prepared
  split
  · have hpos : 0 < r.options.capacityFor (r.size + 1) := by omega
    exact ⟨h.placed.relink hpos, Buckets.entries_relink hpos _⟩
  · exact ⟨h.placed, .refl _⟩

theorem entries_publish (h : r.Linked) (key : κ) (a : α) :
    (r.publish key a).entries.Perm ({ key, hash := r.hash key, value := a } :: r.entries) := by
  have hsize : 0 < r.prepared.size := by
    have := h.ranged
    rw [capacity_prepared]
    omega
  rw [publish_eq]
  exact (Buckets.entries_link hsize _).trans (h.prepared.2.cons _)

variable [DecidableEq κ]

/-- **A lookup** finds the value of the entry of the key, wherever it is linked. -/
theorem find?_eq_some_iff (h : r.Linked) :
    r.find? key = some a ↔ ∃ e ∈ r.entries, e.key = key ∧ e.value = a :=
  Buckets.find?_eq_some_iff h.placed h.distinct

theorem publish (h : r.Linked) (hnew : r.find? key = none) (a : α) :
    (r.publish key a).Linked := by
  have hperm := h.entries_publish key a
  have hfresh : key ∉ r.entries.map (·.key) := by
    intro hmem
    obtain ⟨e, he, hkey⟩ := List.mem_map.mp hmem
    have := h.find?_eq_some_iff.mpr ⟨e, he, hkey, rfl⟩
    rw [hnew] at this
    cases this
  refine ⟨?_, ?_, ?_, ?_⟩
  · have := h.ranged
    rw [capacity_publish]
    omega
  · have hsize : 0 < r.prepared.size := by
      have := h.ranged
      rw [capacity_prepared]
      omega
    rw [publish_eq]
    exact h.prepared.1.link hsize rfl
  · rw [(hperm.map _).nodup_iff, List.map_cons]
    exact List.nodup_cons.mpr ⟨hfresh, h.distinct⟩
  · rw [hperm.length_eq, publish_eq, List.length_cons, ← h.size]

/-- **Publishing changes the lookup of its own key only.** -/
theorem find?_publish (h : r.Linked) (hnew : r.find? key = none) (a : α) (k : κ) :
    (r.publish key a).find? k = if k = key then some a else r.find? k := by
  have hpub := h.publish hnew a
  have hmem : ∀ e, e ∈ (r.publish key a).entries ↔
      e = { key, hash := r.hash key, value := a } ∨ e ∈ r.entries := by
    intro e
    rw [(h.entries_publish key a).mem_iff, List.mem_cons]
  by_cases hk : k = key
  · rw [if_pos hk, hk]
    exact hpub.find?_eq_some_iff.mpr ⟨_, (hmem _).mpr (.inl rfl), rfl, rfl⟩
  · rw [if_neg hk]
    -- The entries of any other key are the old ones.
    ext v
    rw [hpub.find?_eq_some_iff, h.find?_eq_some_iff]
    constructor
    · rintro ⟨e, he, hkey, hv⟩
      rcases (hmem e).mp he with rfl | hold
      · exact absurd hkey.symm hk
      · exact ⟨e, hold, hkey, hv⟩
    · rintro ⟨e, he, hkey, hv⟩
      exact ⟨e, (hmem e).mpr (.inr he), hkey, hv⟩

end Linked

end RecordMap.Registry
