import RecordMap.Proofs.Registry.Buckets
import RecordMap.Proofs.Registry.Sizing

/-!
# Capacities in a word

The number of buckets is computed in three steps: the product of entries and growth factor, the
rounding up to a power of two, and the mask, which is one less.  Each step has its own limit.  The
product saturates at the greatest word, but the greatest word is no power of two, nor is there one
from `2 ^ 63 + 1` on.

So the steps give what they give without bounds just up to `2 ^ 63`
(`RegistryOptions.noOverflow_iff`).  There a capacity is the least power of two that is large
enough, and every hash selects a bucket.  Past it the capacity is zero, and there is no bucket to
select (`RegistryOptions.capacity_safe_iff`).
-/

namespace RecordMap

-- Powers are the built-in ones, whichever library is in scope.
attribute [local instance (high)] instPowNat

/-! ## §1. Steps in a word -/

/-- One less in a word; below zero it wraps to the greatest word. -/
def wrappingPred (n : Nat) : Nat := (n + wordMax) % (wordMax + 1)

theorem wrappingPred_zero : wrappingPred 0 = wordMax := by decide

theorem wrappingPred_of_pos {n : Nat} (hpos : 0 < n) (hword : n ≤ wordMax) :
    wrappingPred n = n - 1 := by
  have hsum : n + wordMax = n - 1 + (wordMax + 1) := by omega
  unfold wrappingPred
  rw [hsum, Nat.add_mod_right, Nat.mod_eq_of_lt (by omega)]

/-- The product saturates, so it is a word. -/
theorem saturatingMul_le (a b : Nat) : saturatingMul a b ≤ wordMax := by
  unfold saturatingMul
  omega

theorem saturatingMul_le_half_iff (a b : Nat) :
    saturatingMul a b ≤ 2 ^ (63 : Nat) ↔ a * b ≤ 2 ^ (63 : Nat) := by
  have hhalf : 2 ^ (63 : Nat) < wordMax := by decide
  unfold saturatingMul
  omega

theorem wordMax_add_one : wordMax + 1 = 2 ^ (64 : Nat) := by decide

/-- A power of two that is a word has at most 63 zeros. -/
theorem two_pow_le_wordMax_iff (k : Nat) : 2 ^ k ≤ wordMax ↔ k < 64 := by
  rw [← Nat.pow_lt_pow_iff_right (by decide : 1 < 2), ← wordMax_add_one]
  exact Nat.lt_succ_iff.symm

/-- The power of two from a number on is a word just up to `2 ^ 63`. -/
theorem nextPow2_le_wordMax_iff (n : Nat) : nextPow2 n ≤ wordMax ↔ n ≤ 2 ^ (63 : Nat) := by
  have hleast := leastPow2_nextPow2 n
  constructor
  · intro h
    obtain ⟨k, hk⟩ := hleast.power
    have hlarge := hleast.large
    rw [hk] at h hlarge
    rw [two_pow_le_wordMax_iff] at h
    have hpow : 2 ^ k ≤ 2 ^ (63 : Nat) := Nat.pow_le_pow_right (by decide) (by omega)
    omega
  · intro h
    exact Nat.le_trans (hleast.least 63 h) (by decide)

/-- **Past `2 ^ 63` rounding up gives zero**: the power of two is a multiple of `2 ^ 64`. -/
theorem roundUpPow2_eq_zero {n : Nat} (h : 2 ^ (63 : Nat) < n) : roundUpPow2 n = 0 := by
  obtain ⟨k, hk⟩ := (leastPow2_nextPow2 n).power
  have hbig : ¬ nextPow2 n ≤ wordMax := by
    rw [nextPow2_le_wordMax_iff]
    omega
  rw [hk, two_pow_le_wordMax_iff] at hbig
  unfold roundUpPow2
  rw [hk, wordMax_add_one]
  exact Nat.mod_eq_zero_of_dvd (Nat.pow_dvd_pow 2 (by omega))

/-! ## §2. Capacities -/

namespace RegistryOptions

/-- How many buckets a number of entries calls for. -/
def demand (o : RegistryOptions) (entries : Nat) : Nat :=
  max (saturatingMul entries o.growthFactor) o.initialSize

theorem capacityFor_eq (o : RegistryOptions) (entries : Nat) :
    o.capacityFor entries = roundUpPow2 (o.demand entries) := rfl

/-- A registry starts with the capacity for no entries. -/
theorem capacityFor_zero (o : RegistryOptions) : o.capacityFor 0 = o.initialCapacity := by
  simp [capacityFor, initialCapacity, saturatingMul]

/-- **No step of a capacity overflows**: the product is a word, the power of two is the one that
there is without bounds, and the mask is one less than it. -/
structure NoOverflow (o : RegistryOptions) (entries : Nat) : Prop where
  product : saturatingMul entries o.growthFactor ≤ wordMax
  power : o.capacityFor entries = nextPow2 (o.demand entries)
  mask : wrappingPred (o.capacityFor entries) + 1 = o.capacityFor entries

variable (o : RegistryOptions) (entries : Nat)

theorem demand_le_half_iff : o.demand entries ≤ 2 ^ (63 : Nat) ↔
    o.initialSize ≤ 2 ^ (63 : Nat) ∧ entries * o.growthFactor ≤ 2 ^ (63 : Nat) := by
  have hproduct := saturatingMul_le_half_iff entries o.growthFactor
  unfold demand
  omega

variable {o entries}

theorem capacityFor_eq_zero (h : ¬ o.demand entries ≤ 2 ^ (63 : Nat)) :
    o.capacityFor entries = 0 := by
  rw [capacityFor_eq]
  exact roundUpPow2_eq_zero (by omega)

/-- **The limit of the steps** is that of the rounding. -/
theorem noOverflow_iff_demand : o.NoOverflow entries ↔ o.demand entries ≤ 2 ^ (63 : Nat) := by
  constructor
  · intro h
    by_contra hbig
    have hmask := h.mask
    rw [capacityFor_eq_zero hbig] at hmask
    omega
  · intro h
    have hleast : LeastPow2 (o.demand entries) (o.capacityFor entries) := leastPow2_roundUpPow2 h
    have hword : nextPow2 (o.demand entries) ≤ wordMax := (nextPow2_le_wordMax_iff _).mpr h
    have hpower : o.capacityFor entries = nextPow2 (o.demand entries) := by
      rw [capacityFor_eq]
      unfold roundUpPow2
      exact Nat.mod_eq_of_lt (by omega)
    have hpos : 0 < o.capacityFor entries := by
      obtain ⟨k, hk⟩ := hleast.power
      rw [hk]
      exact Nat.two_pow_pos k
    refine ⟨saturatingMul_le _ _, hpower, ?_⟩
    rw [wrappingPred_of_pos hpos (by omega)]
    omega

theorem noOverflow_iff : o.NoOverflow entries ↔
    o.initialSize ≤ 2 ^ (63 : Nat) ∧ entries * o.growthFactor ≤ 2 ^ (63 : Nat) := by
  rw [noOverflow_iff_demand, demand_le_half_iff]

/-- **A sound capacity**: the least power of two that is large enough, with a bucket for every
hash. -/
structure SoundCapacity (o : RegistryOptions) (entries capacity : Nat) : Prop where
  least : LeastPow2 (max o.initialSize (entries * o.growthFactor)) capacity
  atLeastOne : 1 ≤ capacity
  atLeastInitial : o.initialSize ≤ capacity
  atMost : capacity ≤ 2 ^ (63 : Nat)
  /-- The bits that the mask lets through are the position of a bucket. -/
  selects : ∀ {κ α : Type} (b : Registry.Buckets κ α), b.size = capacity → ∀ hash : UInt64,
    b.index hash = hash.toNat &&& wrappingPred capacity ∧ b.index hash < capacity

theorem NoOverflow.sound (h : o.NoOverflow entries) :
    o.SoundCapacity entries (o.capacityFor entries) := by
  obtain ⟨hinitial, hproduct⟩ := noOverflow_iff.mp h
  have hleast := leastPow2_capacityFor hinitial hproduct
  have hlarge := hleast.large
  have hmost := hleast.least 63 (by omega)
  have hmask := h.mask
  refine ⟨hleast, by omega, by omega, hmost, ?_⟩
  intro κ α b hsize hash
  have hpred : b.size - 1 = wrappingPred (o.capacityFor entries) := by omega
  have hlt : b.index hash < b.size := Registry.Buckets.index_lt (by omega) hash
  constructor
  · rw [← hpred]
    rfl
  · omega

/-- Fewer entries need no more buckets. -/
theorem NoOverflow.mono {fewer : Nat} (h : o.NoOverflow entries) (hle : fewer ≤ entries) :
    o.NoOverflow fewer ∧ o.capacityFor fewer ≤ o.capacityFor entries := by
  obtain ⟨hinitial, hproduct⟩ := noOverflow_iff.mp h
  have hfewer : fewer * o.growthFactor ≤ entries * o.growthFactor :=
    Nat.mul_le_mul_right _ hle
  have hsafe : o.NoOverflow fewer := noOverflow_iff.mpr ⟨hinitial, by omega⟩
  exact ⟨hsafe, hsafe.sound.least.mono h.sound.least (by omega)⟩

/-- **An overflow**: there is no word for the power of two, so the capacity is zero, and the mask
of no buckets lets all bits through.  No registry gets larger for it. -/
structure Overflows (o : RegistryOptions) (entries : Nat) : Prop where
  power : wordMax < nextPow2 (o.demand entries)
  capacity : o.capacityFor entries = 0
  mask : wrappingPred (o.capacityFor entries) = wordMax
  kept : ∀ {κ α : Type} (r : Registry κ α) (key : κ) (a : α), r.options = o →
    r.size + 1 = entries → (r.publish key a).capacity = r.capacity

theorem overflows_of_not_noOverflow (h : ¬ o.NoOverflow entries) : o.Overflows entries := by
  rw [noOverflow_iff_demand] at h
  have hzero := capacityFor_eq_zero h
  constructor
  case power =>
    rw [← nextPow2_le_wordMax_iff] at h
    omega
  case capacity => exact hzero
  case mask =>
    rw [hzero]
    exact wrappingPred_zero
  case kept =>
    intro κ α r key a hoptions hentries
    rw [Registry.capacity_publish, hoptions, hentries, hzero]
    omega

/-- **When a capacity is safe.**

A registry starts with the capacity for no entries.  The steps of a capacity overflow just if the
initial size or the product of entries and growth factor is past `2 ^ 63`.  Up to there a
capacity is the least power of two that is large enough, it selects a bucket for every hash, and
it is monotone in the entries.  From there on it is zero, for all more entries too. -/
theorem capacity_safe_iff (o : RegistryOptions) :
    (∀ {κ α : Type} (hash : κ → UInt64),
      (Registry.empty hash o : Registry κ α).capacity = o.capacityFor 0) ∧
    ∀ entries,
      (o.NoOverflow entries ↔
        o.initialSize ≤ 2 ^ (63 : Nat) ∧ entries * o.growthFactor ≤ 2 ^ (63 : Nat)) ∧
      (o.NoOverflow entries → o.SoundCapacity entries (o.capacityFor entries) ∧
        ∀ fewer ≤ entries, o.NoOverflow fewer ∧ o.capacityFor fewer ≤ o.capacityFor entries) ∧
      (¬ o.NoOverflow entries → ∀ more, entries ≤ more → o.Overflows more) := by
  refine ⟨?_, ?_⟩
  · intro κ α hash
    rw [capacityFor_zero]
    exact Registry.Buckets.size_empty _
  · intro entries
    refine ⟨noOverflow_iff, ?_, ?_⟩
    · intro h
      exact ⟨h.sound, fun fewer hle => h.mono hle⟩
    · intro h more hle
      apply overflows_of_not_noOverflow
      intro hmore
      exact h (hmore.mono hle).1

example : (ofSizes 3 3).capacityFor 2 = 8 := by decide

/-- **Capacities that are lost.**  An initial size past `2 ^ 63` gives no bucket at all, and a
growth factor past it fewer buckets for one entry than for none. -/
theorem capacity_overflows_past_half :
    ((ofSizes 9223372036854775809 2).initialCapacity = 0 ∧
      (∀ k : Nat, (ofSizes 9223372036854775809 2).initialCapacity ≠ 2 ^ k) ∧
      ¬ (ofSizes 9223372036854775809 2).NoOverflow 0) ∧
    (ofSizes 16 9223372036854775809).capacityFor 0 = 16 ∧
      (ofSizes 16 9223372036854775809).capacityFor 1 = 0 := by
  have hzero : (ofSizes 9223372036854775809 2).initialCapacity = 0 := by decide +kernel
  refine ⟨⟨hzero, ?_, ?_⟩, by decide +kernel, by decide +kernel⟩
  · intro k hk
    have hpos := Nat.two_pow_pos k
    omega
  · rw [noOverflow_iff]
    decide +kernel

end RegistryOptions

end RecordMap
