import RecordMap.Proofs.Conversion.Joins

/-!
# The two halves of the conversion table

Which pairs of primitives are joined at all is known when a mapping is resolved
(`Primitive.convertsTo`); what becomes of a value is known when the mapping is run
(`Primitive.cast`).  The halves agree: a cast refuses a value as unsupported just if the pair is
not joined, and then every value (`Primitive.cast_refuses_iff`).

What the search finds between two types casts along joined pairs only
(`Scope.supported_resolve`).  That no mapping runs into an unsupported cast follows from there.
An error of a mapping has the fault of the cast as a text, so it matters that the wordings of
faults are told apart (`Conversion.isUnsupported_fault_iff`).
-/

namespace RecordMap

/-! ## §1. Casts -/

/-- **The result is a refusal**: there is no path in the table. -/
def Refuses {α : Type} (x : Except ScalarFault α) : Prop :=
  ∃ value target, x = .error (.unsupported value target)

section

variable {α β : Type}

@[simp] theorem not_refuses_ok (a : α) : ¬Refuses (.ok a : Except ScalarFault α) := by
  simp [Refuses]

@[simp] theorem not_refuses_outOfRange (value : String) (p : Primitive) :
    ¬Refuses (.error (.outOfRange value p) : Except ScalarFault α) := by
  simp [Refuses]

@[simp] theorem not_refuses_parse (text : String) (p : Primitive) :
    ¬Refuses (.error (.parse text p) : Except ScalarFault α) := by
  simp [Refuses]

@[simp] theorem refuses_unsupported (value : String) (p : Primitive) :
    Refuses (.error (.unsupported value p) : Except ScalarFault α) := by
  simp [Refuses]

@[simp] theorem refuses_map_iff {f : α → β} {x : Except ScalarFault α} :
    Refuses (f <$> x) ↔ Refuses x := by
  cases x <;> simp [Refuses]

/-- What comes after a reading that succeeds does not refuse. -/
theorem refuses_bind_iff {x : Except ScalarFault α} {f : α → Except ScalarFault β}
    (hf : ∀ a, ¬Refuses (f a)) : Refuses (x >>= f) ↔ Refuses x := by
  cases x with
  | error e => simp [Refuses, bind, Except.bind]
  | ok a =>
    show Refuses (f a) ↔ _
    simp [hf a]

end

namespace Scalar

variable {s : Scalar} {p : Primitive}

/-- A primitive that the scalar is read from.  All integers are read alike. -/
def primitive : Scalar → Primitive
  | bool _ => .bool
  | char _ => .char
  | int _ => .int .i64
  | float t _ => .float t
  | text _ => .text

theorem not_refuses_toInt : ¬Refuses (s.toInt p) := by
  cases s with
  | float t x =>
    simp only [toInt, floatToInt]
    split
    · split <;> simp
    · simp
  | text t =>
    simp only [toInt]
    split <;> simp
  | _ => simp [toInt]

theorem not_refuses_narrow (t : IntType) (n : Int) : ¬Refuses (narrow t n) := by
  unfold narrow
  split <;> simp

theorem refuses_toFloat_iff : Refuses (s.toFloat p) ↔ s.primitive = .char := by
  cases s with
  | text t =>
    simp only [toFloat]
    split <;> simp [primitive]
  | _ => simp [toFloat, primitive]

theorem not_refuses_narrowFloat (t : FloatType) (x : Binary) : ¬Refuses (narrowFloat t x) := by
  unfold narrowFloat
  dsimp only
  split <;> simp

theorem refuses_toBool_iff : Refuses (s.toBool p) ↔ s.primitive = .char := by
  cases s with
  | text t =>
    simp only [toBool]
    split
    · simp [primitive]
    · split <;> simp [primitive]
  | _ => simp [toBool, primitive]

theorem refuses_toChar_iff :
    Refuses (s.toChar p) ↔ s.primitive = .bool ∨ ∃ t, s.primitive = .float t := by
  cases s with
  | int n =>
    simp only [toChar]
    split <;> simp [primitive]
  | text t =>
    simp only [toChar]
    split <;> simp [primitive]
  | _ => simp [toChar, primitive]

/-- **Writing refuses a scalar** just if the table does not join the primitives. -/
theorem refuses_write_iff : Refuses (s.write p) ↔ s.primitive.convertsTo p = false := by
  cases p with
  | bool =>
    show Refuses (Value.bool <$> s.toBool .bool) ↔ _
    rw [refuses_map_iff, refuses_toBool_iff]
    cases s <;> simp [primitive, Primitive.convertsTo]
  | char =>
    show Refuses (Value.char <$> s.toChar .char) ↔ _
    rw [refuses_map_iff, refuses_toChar_iff]
    cases s <;> simp [primitive, Primitive.convertsTo]
  | int t =>
    show Refuses (s.toInt (.int t) >>= narrow t) ↔ _
    rw [refuses_bind_iff (not_refuses_narrow t)]
    cases s <;> simp [primitive, Primitive.convertsTo, not_refuses_toInt]
  | float t =>
    show Refuses (s.toFloat (.float t) >>= narrowFloat t) ↔ _
    rw [refuses_bind_iff (not_refuses_narrowFloat t), refuses_toFloat_iff]
    cases s <;> simp [primitive, Primitive.convertsTo]
  | text => cases s <;> simp [write, primitive, Primitive.convertsTo]

/-- Integers are written to every primitive. -/
theorem not_refuses_write_int (n : Int) : ¬Refuses ((int n).write p) := by
  rw [refuses_write_iff]
  cases p <;> simp [primitive, Primitive.convertsTo]

end Scalar

namespace Primitive

variable {p q : Primitive} {v : Value}

/-- What is read of a value of a primitive type is joined with the same primitives. -/
theorem exists_read? (h : v.type = .prim p) :
    ∃ s, p.read? v = some s ∧ ∀ q, s.primitive.convertsTo q = p.convertsTo q := by
  cases v <;> cases h <;> exact ⟨_, if_pos rfl, fun q => by cases q <;> rfl⟩

/-- **A cast refuses a value** just if the table does not join the two primitives. -/
theorem cast_refuses_iff (h : v.type = .prim p) :
    Refuses (p.cast q v) ↔ p.convertsTo q = false := by
  obtain ⟨s, hs, hjoined⟩ := exists_read? h
  unfold cast
  rw [hs]
  show Refuses (some <$> s.write q) ↔ _
  rw [refuses_map_iff, Scalar.refuses_write_iff, hjoined]

/-- A joined pair refuses no value, of whatever type. -/
theorem not_refuses_cast (hpq : p.convertsTo q = true) : ¬Refuses (p.cast q v) := by
  by_cases h : v.type = .prim p
  · rw [cast_refuses_iff h, hpq]
    simp
  · have hnone : p.read? v = none := if_neg h
    unfold cast
    rw [hnone]
    simp

end Primitive

/-! ## §2. Wording

The last word of a fault is the name of a primitive, and the word before it tells the kind of
the fault: out of range *for*, parsed *as*, or converted *to*. -/

/-- The last letter of the word before the last one. -/
def penultimate (s : String) : Option Char := (s.toList.reverse.dropWhile (· != ' '))[1]?

theorem not_mem_name (p : Primitive) : ' ' ∉ p.name.toList := by
  have hall : ∀ p ∈ Primitive.all, ' ' ∉ p.name.toList := by decide
  exact hall p p.mem_all

theorem penultimate_append_name {s t : String} {c : Char} {cs : List Char} (p : Primitive)
    (ht : t.toList.reverse = ' ' :: c :: cs) : penultimate (s ++ t ++ p.name) = some c := by
  have hname : ∀ d ∈ p.name.toList.reverse, (d != ' ') = true := by
    intro d hd
    rw [List.mem_reverse] at hd
    rw [bne_iff_ne]
    intro hblank
    exact not_mem_name p (hblank ▸ hd)
  unfold penultimate
  rw [String.toList_append, List.reverse_append, List.dropWhile_append_of_pos hname,
    String.toList_append, List.reverse_append, ht]
  rfl

/-- The kinds of faults, by the word before the last one. -/
def ScalarFault.letter : ScalarFault → Char
  | outOfRange .. => 'r'
  | parse .. => 's'
  | unsupported .. => 'o'

theorem ScalarFault.penultimate_message (f : ScalarFault) :
    penultimate f.message = some f.letter := by
  cases f with
  | outOfRange value p => exact penultimate_append_name p (t := " is out of range for ") rfl
  | parse text p => exact penultimate_append_name p (t := " as ") rfl
  | unsupported value p => exact penultimate_append_name p (t := " to ") rfl

/-- **The error reads as that of an unsupported cast.** -/
def MapError.IsUnsupported (e : MapError) : Prop :=
  ∃ source target value p, e = .conversion source target (ScalarFault.unsupported value p).message

/-- **Wordings are told apart**: the fault of a cast reads as unsupported just if it is. -/
theorem Conversion.isUnsupported_fault_iff {source target : String} {f : ScalarFault} :
    (Conversion.fault source target f).IsUnsupported ↔ ∃ value p, f = .unsupported value p := by
  constructor
  · intro h
    obtain ⟨_, _, value, p, heq⟩ := h
    have hmessage : f.message = (ScalarFault.unsupported value p).message := by
      injection heq
    have hletter : some f.letter = some 'o' := by
      rw [← f.penultimate_message, hmessage, ScalarFault.penultimate_message]
      rfl
    cases f with
    | outOfRange _ _ => cases hletter
    | parse _ _ => cases hletter
    | unsupported value p => exact ⟨value, p, rfl⟩
  · rintro ⟨value, p, rfl⟩
    exact ⟨source, target, value, p, rfl⟩

/-- A reason that does not start as the faults of casts do is that of no cast. -/
theorem MapError.not_isUnsupported_of_head {source target reason : String}
    (h : reason.toList.head? ≠ some 'c') :
    ¬(MapError.conversion source target reason).IsUnsupported := by
  rintro ⟨_, _, value, p, heq⟩
  have hreason : reason = "cannot convert " ++ value ++ " to " ++ p.name := by
    injection heq
  rw [hreason, String.toList_append, String.toList_append, String.toList_append] at h
  exact h rfl

/-- An error that is no failed conversion has no fault of a cast in it. -/
theorem MapError.not_isUnsupported_of_ne {e : MapError}
    (h : ∀ source target reason, e ≠ .conversion source target reason) : ¬e.IsUnsupported := by
  intro hunsupported
  obtain ⟨source, target, value, p, he⟩ := hunsupported
  exact h source target _ he

/-! ## §3. Trees -/

namespace Conversion

/-- The casts in the tree. -/
def casts : Conversion → List (Primitive × Primitive)
  | primitive p q => [(p, q)]
  | unwrap _ next | wrap _ next | wrapSource _ next | elements _ _ next => next.casts
  | _ => []

/-- **The tree casts along joined pairs only.** -/
def Supported (c : Conversion) : Prop := ∀ pq ∈ c.casts, pq.1.convertsTo pq.2 = true

variable {c : Conversion}

/-- What is cast along a joined pair does not fault as unsupported. -/
theorem Supported.not_isUnsupported {p q : Primitive} {v : Value} {f : ScalarFault}
    {source target : String} (h : (primitive p q).Supported) (hf : p.cast q v = .error f) :
    ¬(fault source target f).IsUnsupported := by
  rw [isUnsupported_fault_iff]
  rintro ⟨value, t, rfl⟩
  exact Primitive.not_refuses_cast (h (p, q) (List.mem_singleton.mpr rfl)) ⟨value, t, hf⟩

theorem supported_of_casts (h : c.casts = []) : c.Supported := by
  intro pq hpq
  rw [h] at hpq
  cases hpq

end Conversion

namespace Scope

variable {S : Scope} {a b : Ty} {c : Conversion}

/-- The built-in step casts only where the table joins. -/
theorem supported_leaf? (h : S.leaf? a b = some c) : c.Supported := by
  unfold leaf? at h
  split at h
  · rename_i p q
    split at h
    · rename_i hjoined
      cases h
      intro pq hpq
      cases List.mem_singleton.mp hpq
      exact hjoined
    · cases h
  · split at h <;> cases h
    exact Conversion.supported_of_casts rfl
  · split at h <;> cases h
    exact Conversion.supported_of_casts rfl
  · cases h
    exact Conversion.supported_of_casts rfl
  · cases h
    exact Conversion.supported_of_casts rfl
  · cases h

theorem supported_converter? (h : S.converter? a b = some c) : c.Supported := by
  obtain ⟨k, -, rfl⟩ := Option.map_eq_some_iff.mp h
  exact Conversion.supported_of_casts rfl

theorem supported_operator? (h : S.operator? a b = some c) : c.Supported := by
  obtain ⟨k, -, rfl⟩ := Option.map_eq_some_iff.mp h
  exact Conversion.supported_of_casts rfl

theorem supported_closing (h : closing S.converter? a b = some c) : c.Supported := by
  obtain ⟨wrapped, -, h⟩ := Option.bind_eq_some_iff.mp h
  obtain ⟨next, hnext, rfl⟩ := Option.map_eq_some_iff.mp h
  show next.Supported
  exact supported_converter? hnext

/-- A layer makes no cast of its own. -/
theorem layered_supported : Layered fun c _ _ => c.Supported where
  unwrap h := h
  wrap h := h
  elements h := h

/-- **Every conversion found is supported.** -/
theorem supported_resolve (h : S.resolve a b = some c) : c.Supported := by
  have hbuilt : S.Built fun c _ _ => c.Supported :=
    { layered_supported with
      copy := fun _ => Conversion.supported_of_casts rfl
      converter := supported_converter?
      operator := supported_operator?
      closing := supported_closing
      leaf := supported_leaf? }
  exact hbuilt.resolve h

/-- A nesting conversion casts nothing. -/
theorem supported_nesting {profile : Option String} (h : nesting profile a b = some c) :
    c.Supported :=
  layered_supported.nesting (fun _ _ => Conversion.supported_of_casts rfl) h

end Scope

end RecordMap
