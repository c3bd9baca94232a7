import RecordMap.Callback

/-!
# Tables

Converters are kept by their exact source and target type, and values by their
exact type.  A later entry replaces an earlier one with the same key; lookup
never looks through options.
-/

namespace RecordMap

/-! ## §1. Converters by type pair -/

/-- Converters, at most one for each source and target type. -/
structure ConverterTable where
  entries : List Converter := []

namespace ConverterTable

/-- The converter has the given source and target. -/
def isFor (source target : Ty) (c : Converter) : Bool :=
  c.source = source ∧ c.target = target

/-- Add a converter in place of the one with the same types. -/
def insert (t : ConverterTable) (c : Converter) : ConverterTable :=
  ⟨c :: t.entries.filter fun d => !isFor c.source c.target d⟩

/-- The converter for exactly these types. -/
def get? (t : ConverterTable) (source target : Ty) : Option Converter :=
  t.entries.find? (isFor source target)

/-- The number of converters. -/
def size (t : ConverterTable) : Nat := t.entries.length

/-- There are no converters. -/
def isEmpty (t : ConverterTable) : Bool := t.entries.isEmpty

@[simp] theorem get?_empty (a b : Ty) : ({} : ConverterTable).get? a b = none := rfl

theorem get?_insert_self (t : ConverterTable) (c : Converter) :
    (t.insert c).get? c.source c.target = some c := by
  simp [get?, insert, isFor]

theorem get?_insert_of_ne (t : ConverterTable) (c : Converter) {a b : Ty}
    (h : ¬(c.source = a ∧ c.target = b)) : (t.insert c).get? a b = t.get? a b := by
  have hc : isFor a b c = false := by simpa [isFor] using h
  simp only [get?, insert, List.find?_cons, hc, List.find?_filter]
  congr 1
  funext d
  by_cases hd : isFor a b d = true
  · have e : d.source = a ∧ d.target = b := by simpa [isFor] using hd
    have : isFor c.source c.target d = false := by
      simp only [isFor, decide_eq_false_iff_not, e.1, e.2]
      exact fun he => h ⟨he.1.symm, he.2.symm⟩
    simp [this]
  · simp [hd]

theorem source_target_of_get? {t : ConverterTable} {a b : Ty} {c : Converter}
    (h : t.get? a b = some c) : c.source = a ∧ c.target = b := by
  simpa [isFor] using List.find?_some h

end ConverterTable

/-! ## §2. Values by type -/

/-- Values, at most one of each type. -/
structure ValueTable where
  entries : List Value := []

namespace ValueTable

/-- Add a value in place of the one of its type. -/
def insert (t : ValueTable) (v : Value) : ValueTable :=
  ⟨v :: t.entries.filter (·.type != v.type)⟩

/-- The value of exactly this type. -/
def get? (t : ValueTable) (ty : Ty) : Option Value := t.entries.find? (·.type == ty)

@[simp] theorem get?_empty (ty : Ty) : ({} : ValueTable).get? ty = none := rfl

theorem get?_insert_self (t : ValueTable) (v : Value) : (t.insert v).get? v.type = some v := by
  simp [get?, insert]

theorem get?_insert_of_ne (t : ValueTable) {v : Value} {ty : Ty} (h : v.type ≠ ty) :
    (t.insert v).get? ty = t.get? ty := by
  have hv : (v.type == ty) = false := beq_false_of_ne h
  simp only [get?, insert, List.find?_cons, hv, List.find?_filter]
  congr 1
  funext w
  by_cases hw : w.type = ty
  · subst hw
    simp [Ne.symm h]
  · simp [hw]

theorem type_of_get? {t : ValueTable} {ty : Ty} {v : Value} (h : t.get? ty = some v) :
    v.type = ty := by
  simpa using List.find?_some h

end ValueTable

end RecordMap
