import RecordMap.Registry

/-!
# What a registry holds

A property of the published values under their keys holds of a registry as long
as it holds of every value when it is published.  Growing the array moves entries
between chains but makes none up, and a lookup gives a published value.

This is all that correctness needs of the registry: that every key is found again
matters only for how often things are built.
-/

namespace RecordMap.Registry

variable {κ α : Type} {P Q : κ → α → Prop}

/-! ## §1. Buckets -/

/-- Every entry satisfies the property. -/
def Buckets.Holds (P : κ → α → Prop) (b : Buckets κ α) : Prop :=
  ∀ chain ∈ b.toList, ∀ e ∈ chain, P e.key e.value

theorem Buckets.holds_empty (capacity : Nat) :
    (Buckets.empty capacity : Buckets κ α).Holds P := by
  intro chain hchain e he
  have hnil : chain = [] := by
    unfold Buckets.empty at hchain
    rw [Array.toList_replicate] at hchain
    exact List.eq_of_mem_replicate hchain
  rw [hnil] at he
  cases he

theorem Buckets.Holds.link {b : Buckets κ α} (h : b.Holds P) {e : Entry κ α}
    (he : P e.key e.value) : (b.link e).Holds P := by
  intro chain hchain e' he'
  -- Only the chain that the hash selects is another.
  obtain ⟨i, hi⟩ := List.mem_iff_getElem?.mp hchain
  unfold Buckets.link at hi
  rw [Array.getElem?_toList, Array.getElem?_modify] at hi
  split at hi
  · obtain ⟨old, hold, rfl⟩ := Option.map_eq_some_iff.mp hi
    rcases List.mem_cons.mp he' with rfl | hmem
    · exact he
    · exact h old (Array.mem_toList_iff.mpr (Array.mem_of_getElem? hold)) e' hmem
  · exact h chain (Array.mem_toList_iff.mpr (Array.mem_of_getElem? hi)) e' he'

theorem Buckets.Holds.foldl_link {b : Buckets κ α} (h : b.Holds P) {chain : List (Entry κ α)}
    (hchain : ∀ e ∈ chain, P e.key e.value) : (chain.foldl Buckets.link b).Holds P := by
  induction chain generalizing b with
  | nil => exact h
  | cons e rest ih =>
    exact ih (h.link (hchain e (by simp))) fun e' he' => hchain e' (List.mem_cons_of_mem _ he')

/-- Moving the entries of some buckets into others makes up no entry. -/
theorem Buckets.Holds.relink {b target : Buckets κ α} (h : b.Holds P) (ht : target.Holds P) :
    (b.relink target).Holds P := by
  unfold Buckets.relink
  unfold Buckets.Holds at h
  generalize b.toList = chains at h
  induction chains generalizing target with
  | nil => exact ht
  | cons chain rest ih =>
    refine ih ?_ fun c hc => h c (List.mem_cons_of_mem _ hc)
    exact ht.foldl_link (h chain (by simp))

/-! ## §2. Registries -/

/-- **Every published value satisfies the property** with its key. -/
def Holds (P : κ → α → Prop) (r : Registry κ α) : Prop := r.buckets.Holds P

variable {r : Registry κ α} {key : κ} {a : α}

theorem holds_empty (hash : κ → UInt64) (options : RegistryOptions) :
    (Registry.empty hash options : Registry κ α).Holds P :=
  Buckets.holds_empty _

theorem Holds.mono (h : r.Holds P) (hPQ : ∀ key a, P key a → Q key a) : r.Holds Q := by
  intro chain hchain e he
  exact hPQ _ _ (h chain hchain e he)

theorem Holds.of_find? [DecidableEq κ] (h : r.Holds P) (ha : r.find? key = some a) : P key a := by
  unfold find? Buckets.find? at ha
  obtain ⟨e, he, rfl⟩ := Option.map_eq_some_iff.mp ha
  have hfound : e.hash = r.hash key ∧ e.key = key := by simpa using List.find?_some he
  have hmem := List.mem_of_find?_eq_some he
  rw [← hfound.2]
  cases hchain : r.buckets[r.buckets.index (r.hash key)]? with
  | none =>
    rw [hchain] at hmem
    cases hmem
  | some chain =>
    rw [hchain] at hmem
    exact h chain (Array.mem_toList_iff.mpr (Array.mem_of_getElem? hchain)) e hmem

theorem Holds.publish (h : r.Holds P) (ha : P key a) : (r.publish key a).Holds P := by
  -- With growth or without, the new entry is linked last.
  unfold Registry.publish
  dsimp only
  split
  · exact (Buckets.Holds.relink h (Buckets.holds_empty _)).link ha
  · exact Buckets.Holds.link h ha

/-- A lookup counts, and changes nothing else. -/
theorem Holds.tryGet [DecidableEq κ] (h : r.Holds P) (key : κ) : (r.tryGet key).2.Holds P := by
  unfold Registry.tryGet
  split
  · exact h
  · exact h

theorem tryGet_fst [DecidableEq κ] (r : Registry κ α) (key : κ) :
    (r.tryGet key).1 = r.find? key := by
  unfold tryGet
  split
  · rename_i h
    exact h.symm
  · rename_i h
    exact h.symm

end RecordMap.Registry
