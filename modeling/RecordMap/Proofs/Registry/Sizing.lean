import RecordMap.Registry

/-!
# Sizes of bucket arrays

The number of buckets is a power of two, so that a hash selects one of them by
its low bits.  `nextPow2 n` is the least power of two from `n` on
(`leastPow2_nextPow2`).  In a word this stays so up to `2 ^ 63`
(`leastPow2_roundUpPow2`), and past it rounding up wraps to zero.
-/

namespace RecordMap

-- Powers are the built-in ones, whichever library is in scope.
attribute [local instance (high)] instPowNat

/-! ## §1. Powers of two -/

/-- **The least power of two** from a number on. -/
structure LeastPow2 (n c : Nat) : Prop where
  power : ∃ k : Nat, c = 2 ^ k
  large : n ≤ c
  least : ∀ k : Nat, n ≤ 2 ^ k → c ≤ 2 ^ k

/-- More cannot need less. -/
theorem LeastPow2.mono {m n c d : Nat} (hc : LeastPow2 m c) (hd : LeastPow2 n d) (h : m ≤ n) :
    c ≤ d := by
  obtain ⟨k, hk⟩ := hd.power
  rw [hk]
  apply hc.least
  rw [← hk]
  exact Nat.le_trans h hd.large

theorem leastPow2_nextPow2 (n : Nat) : LeastPow2 n (nextPow2 n) := by
  unfold nextPow2
  by_cases hn : n ≤ 1
  · rw [if_pos hn]
    refine ⟨⟨0, rfl⟩, hn, ?_⟩
    intro k _
    exact Nat.one_le_two_pow
  · rw [if_neg hn]
    refine ⟨⟨_, rfl⟩, ?_, ?_⟩
    · have := @Nat.lt_log2_self (n - 1)
      omega
    · intro k hk
      -- A power that is large enough has more bits than `n - 1`.
      have hlt : (n - 1).log2 < k := (Nat.log2_lt (by omega)).mpr (by omega)
      exact Nat.pow_le_pow_right (by decide) hlt

/-! ## §2. Rounding up in a word -/

theorem leastPow2_roundUpPow2 {n : Nat} (hn : n ≤ 2 ^ (63 : Nat)) :
    LeastPow2 n (roundUpPow2 n) := by
  have hleast := leastPow2_nextPow2 n
  have hword : nextPow2 n < wordMax + 1 := Nat.lt_of_le_of_lt (hleast.least 63 hn) (by decide)
  unfold roundUpPow2
  rw [Nat.mod_eq_of_lt hword]
  exact hleast

namespace RegistryOptions

variable {o : RegistryOptions}

theorem leastPow2_initialCapacity (h : o.initialSize ≤ 2 ^ (63 : Nat)) :
    LeastPow2 o.initialSize o.initialCapacity :=
  leastPow2_roundUpPow2 h

theorem leastPow2_capacityFor {entries : Nat} (h : o.initialSize ≤ 2 ^ (63 : Nat))
    (hentries : entries * o.growthFactor ≤ 2 ^ (63 : Nat)) :
    LeastPow2 (max o.initialSize (entries * o.growthFactor)) (o.capacityFor entries) := by
  have hfits : saturatingMul entries o.growthFactor = entries * o.growthFactor := by
    unfold saturatingMul
    have : 2 ^ (63 : Nat) ≤ wordMax := by decide
    omega
  unfold capacityFor
  rw [hfits, Nat.max_comm]
  exact leastPow2_roundUpPow2 (by omega)

end RegistryOptions

end RecordMap
