/-!
# Journals

A journal records which callbacks ran: one entry for each, its label or the lack
of one.  It is kept with the latest entry first, so that an entry costs the same
however many came before it.  `Journal.entries` is the journal as it is read,
earliest entry first, and says all there is to say about it.
-/

namespace RecordMap

/-- The callbacks run so far. -/
structure Journal where
  /-- Their labels, the latest first; `none` for an unlabelled callback. -/
  latestFirst : List (Option String) := []
  deriving DecidableEq, Repr

namespace Journal

/-- **The entries** in the order in which they were made. -/
def entries (j : Journal) : List (Option String) := j.latestFirst.reverse

/-- The labels among the entries, in order. -/
def labels (j : Journal) : List String := j.entries.filterMap id

/-- The journal with one more entry. -/
def enter (j : Journal) (label : Option String) : Journal := ⟨label :: j.latestFirst⟩

/-- One journal continued by another. -/
def append (j k : Journal) : Journal := ⟨k.latestFirst ++ j.latestFirst⟩

instance : Append Journal := ⟨append⟩

/-- Several journals one after the other. -/
def concat (js : List Journal) : Journal := js.foldl append {}

/-! ## §1. Entries -/

@[ext] theorem ext {j k : Journal} (h : j.entries = k.entries) : j = k := by
  cases j with
  | mk a =>
    cases k with
    | mk b =>
      have : a = b := by simpa [entries] using h
      rw [this]

@[simp] theorem entries_empty : ({} : Journal).entries = [] := rfl

@[simp] theorem entries_enter (j : Journal) (label : Option String) :
    (j.enter label).entries = j.entries ++ [label] := by
  simp [entries, enter]

@[simp] theorem entries_append (j k : Journal) : (j ++ k).entries = j.entries ++ k.entries := by
  show (append j k).entries = _
  simp [entries, append]

@[simp] theorem empty_append (j : Journal) : ({} : Journal) ++ j = j := ext (by simp)

@[simp] theorem append_empty (j : Journal) : j ++ ({} : Journal) = j := ext (by simp)

theorem append_assoc (j k l : Journal) : j ++ k ++ l = j ++ (k ++ l) := ext (by simp)

end Journal

end RecordMap
