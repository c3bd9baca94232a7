import RecordMap.Value

/-!
# The context of a call

Every call of a mapping has a context: the auxiliary parameter it was given, if
any, and a scratch store through which its callbacks pass values to each other.
The scratch store comes into being with the first value written to it.  Values
are stored under a key with their type, and are found only under that type;
taking a value out empties the key even when the type asked for is another.
-/

namespace RecordMap

/-! ## §1. Scratch -/

/-- The scratch store of a call: not yet allocated, or values by key. -/
structure Scratch where
  entries : Option (List (String × Value)) := none
  deriving Repr

namespace Scratch

/-- The value stored under a key, of whatever type. -/
def lookup? (s : Scratch) (key : String) : Option Value :=
  (s.entries.getD []).lookup key

/-- The store without a key. -/
def erase (s : Scratch) (key : String) : Scratch :=
  ⟨s.entries.map (·.filter (·.1 != key))⟩

/-- Store a value under a key, in place of what was there. -/
def insert (s : Scratch) (key : String) (v : Value) : Scratch :=
  ⟨some ((key, v) :: (s.entries.getD []).filter (·.1 != key))⟩

/-- The value of the given type under a key. -/
def get? (s : Scratch) (t : Ty) (key : String) : Option Value :=
  (s.lookup? key).bind (·.as? t)

/-- **Removal** of a key.  The value is handed out if it has the given type. -/
def remove (s : Scratch) (t : Ty) (key : String) : Option Value × Scratch :=
  (s.get? t key, s.erase key)

/-- The number of keys in use. -/
def size (s : Scratch) : Nat := (s.entries.getD []).length

/-- Something has been written to the store during this call. -/
def isAllocated (s : Scratch) : Bool := s.entries.isSome

@[simp] theorem lookup?_empty (key : String) : ({} : Scratch).lookup? key = none := rfl

theorem lookup_filter_ne (entries : List (String × Value)) {key other : String}
    (h : key ≠ other) : (entries.filter (·.1 != key)).lookup other = entries.lookup other := by
  induction entries with
  | nil => rfl
  | cons entry rest ih =>
      obtain ⟨k, v⟩ := entry
      by_cases hk : k = key
      · subst hk
        have hother : (other == k) = false := by simpa using Ne.symm h
        simp [List.lookup_cons, hother, ih]
      · have hkeep : (k != key) = true := by simpa using hk
        rw [List.filter_cons_of_pos (by simpa using hkeep), List.lookup_cons, List.lookup_cons]
        split
        · rfl
        · exact ih

theorem lookup_filter_self (entries : List (String × Value)) (key : String) :
    (entries.filter (·.1 != key)).lookup key = none := by
  induction entries with
  | nil => rfl
  | cons entry rest ih =>
      obtain ⟨k, v⟩ := entry
      by_cases hk : k = key
      · subst hk
        simpa using ih
      · have hother : (key == k) = false := by simpa using Ne.symm hk
        simp [hk, List.lookup_cons, hother, ih]

theorem lookup?_insert_self (s : Scratch) (key : String) (v : Value) :
    (s.insert key v).lookup? key = some v := by
  simp [lookup?, insert]

theorem lookup?_insert_of_ne (s : Scratch) (v : Value) {key other : String} (h : key ≠ other) :
    (s.insert key v).lookup? other = s.lookup? other := by
  have hother : (other == key) = false := by simpa using Ne.symm h
  simp [lookup?, insert, List.lookup_cons, hother, lookup_filter_ne _ h]

theorem lookup?_erase_self (s : Scratch) (key : String) : (s.erase key).lookup? key = none := by
  unfold lookup? erase
  cases s.entries with
  | none => rfl
  | some entries => exact lookup_filter_self entries key

theorem lookup?_erase_of_ne (s : Scratch) {key other : String} (h : key ≠ other) :
    (s.erase key).lookup? other = s.lookup? other := by
  unfold lookup? erase
  cases s.entries with
  | none => rfl
  | some entries => exact lookup_filter_ne entries h

end Scratch

/-! ## §2. Context -/

/-- What the callbacks of one call share. -/
structure Context where
  parameter : Option Value := none
  scratch : Scratch := {}
  deriving Repr

namespace Context

/-- The context in which constants are evaluated: no parameter, no scratch. -/
def detached : Context := {}

/-- The auxiliary parameter, if it has the given type. -/
def parameter? (c : Context) (t : Ty) : Option Value := c.parameter.bind (·.as? t)

/-- The dump of a context: whether there is a parameter, and how many keys. -/
def dump (c : Context) : String :=
  "MapContext \x7b has_parameter: " ++ toString c.parameter.isSome ++
    ", scratch_keys: " ++ toString c.scratch.size ++ " \x7d"

end Context

end RecordMap
