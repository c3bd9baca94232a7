import RecordMap.Proofs.Typing.Rounding
import RecordMap.Scalar

/-!
# Well-typed values

`Value.type` reads the type off the outside of a value.  `Value.HasType` goes all
the way down: a record has one member of the declared type for each of its
fields, an integer lies in the range of its type, a floating number is in
canonical form, a variant exists.  Well-typed values are the ones a program can
hold; all reading and writing of members keeps to them.
-/

namespace RecordMap

/-! ## §1. The judgement -/

/-- **The value is one of the type**, down to its leaves. -/
inductive Value.HasType (σ : Schema) : Value → Ty → Prop where
  | bool (b : Bool) : HasType σ (.bool b) (.prim .bool)
  | char (c : Char) : HasType σ (.char c) (.prim .char)
  | int {t : IntType} {n : Int} (holds : t.Holds n) : HasType σ (.int t n) (.prim (.int t))
  | float {t : FloatType} {x : Binary} (canonical : t.Canonical x) :
      HasType σ (.float t x) (.prim (.float t))
  | text (s : String) : HasType σ (.text s) (.prim .text)
  | enum {e : String} {i : Nat} (declared : i < (σ.enum e).variants.length) :
      HasType σ (.enum e i) (.enum e)
  | record {r : String} {members : List Value}
      (complete : members.length = (σ.fields r).length)
      (each : ∀ (i : Nat) (v : Value) (f : RecordMap.Field), members[i]? = some v →
        (σ.fields r)[i]? = some f → HasType σ v f.type) :
      HasType σ (.record r members) (.record r)
  | foreign (n content : String) : HasType σ (.foreign n content) (.foreign n)
  | absent (t : Ty) : HasType σ (.absent t) (.option t)
  | present {v : Value} {t : Ty} (held : HasType σ v t) : HasType σ (.present v) (.option t)
  | seq {t : Ty} {items : List Value} (each : ∀ v ∈ items, HasType σ v t) :
      HasType σ (.seq t items) (.seq t)

/-- The value is one of the type it says. -/
def Value.WellFormed (σ : Schema) (v : Value) : Prop := v.HasType σ v.type

theorem Value.WellFormed.hasType {σ : Schema} {v : Value} {t : Ty} (h : v.WellFormed σ)
    (ht : v.type = t) : v.HasType σ t := ht ▸ h

namespace Value.HasType

variable {σ : Schema} {v w : Value} {t : Ty} {r e : String} {i : Nat}

theorem type_eq (h : v.HasType σ t) : v.type = t := by
  induction h with
  | present _ ih => rw [Value.type, ih]
  | _ => rfl

theorem wellFormed (h : v.HasType σ t) : v.WellFormed σ := by
  unfold WellFormed
  rw [h.type_eq]
  exact h

theorem as? (h : v.HasType σ t) : v.as? t = some v := by
  rw [as?_eq_some_iff]
  exact ⟨h.type_eq, rfl⟩

/-! ## §2. Options and sequences -/

theorem wrap? (h : v.HasType σ t) : v.wrap? t = some (Value.present v) := by
  rw [wrap?_eq_some_iff]
  exact ⟨h.type_eq, rfl⟩

/-- A well-typed option is empty or opens to a well-typed value. -/
theorem option_cases (h : v.HasType σ (.option t)) :
    v = Value.absent t ∨ ∃ w, v = Value.present w ∧ w.HasType σ t := by
  cases h with
  | absent => exact .inl rfl
  | present held => exact .inr ⟨_, rfl, held⟩

theorem content? (h : v.HasType σ (.option t)) (hw : v.content? t = some w) :
    w.HasType σ t := by
  rcases h.option_cases with rfl | ⟨u, rfl, hu⟩
  · cases hw
  · rw [content?_present hu.type_eq] at hw
    cases hw
    exact hu

theorem seq_inv (h : v.HasType σ (.seq t)) :
    ∃ items, v = Value.seq t items ∧ ∀ w ∈ items, w.HasType σ t := by
  cases h with
  | seq each => exact ⟨_, rfl, each⟩

theorem items? (h : v.HasType σ (.seq t)) :
    ∃ items, v.items? t = some items ∧ ∀ w ∈ items, w.HasType σ t := by
  obtain ⟨items, rfl, each⟩ := h.seq_inv
  exact ⟨items, by simp [Value.items?], each⟩

/-- Values of one type are collected. -/
theorem collect? {vs : List Value} (h : ∀ v ∈ vs, v.HasType σ t) :
    Value.collect? t vs = some (Value.seq t vs) := by
  unfold Value.collect?
  rw [if_pos]
  rw [List.all_eq_true]
  intro v hv
  exact decide_eq_true (h v hv).type_eq

/-! ## §3. Members -/

theorem record_inv (h : v.HasType σ (.record r)) :
    ∃ members, v = Value.record r members ∧ members.length = (σ.fields r).length ∧
      ∀ (i : Nat) (w : Value) (f : RecordMap.Field), members[i]? = some w →
        (σ.fields r)[i]? = some f → w.HasType σ f.type := by
  cases h with
  | record complete each => exact ⟨_, rfl, complete, each⟩

/-- **Reading a member**: what is declared readable is there, with its type. -/
theorem member? {f : RecordMap.Field} (h : v.HasType σ (.record r))
    (hf : (σ.fields r)[i]? = some f) (hread : f.readable = true) :
    ∃ w, v.member? σ r i = some w ∧ w.HasType σ f.type := by
  obtain ⟨members, rfl, complete, each⟩ := h.record_inv
  have hlt : i < members.length := by
    rw [complete]
    exact (List.getElem?_eq_some_iff.mp hf).1
  have hw : members[i]? = some members[i] := List.getElem?_eq_getElem hlt
  refine ⟨members[i], ?_, each i _ f hw hf⟩
  simp [Value.member?, members?, hf, hread, hw]

/-- **Writing a member** keeps the type of the record. -/
theorem setMember {f : RecordMap.Field} (h : v.HasType σ (.record r))
    (hf : (σ.fields r)[i]? = some f) (hw : w.HasType σ f.type) :
    (v.setMember i w).HasType σ (.record r) := by
  obtain ⟨members, rfl, complete, each⟩ := h.record_inv
  refine .record (by rw [List.length_set, complete]) ?_
  -- The member written, and all others.
  intro j u g hu hg
  by_cases hij : i = j
  · subst hij
    rw [hf] at hg
    cases hg
    rw [List.getElem?_set_self'] at hu
    obtain ⟨_, _, rfl⟩ := Option.map_eq_some_iff.mp hu
    exact hw
  · rw [List.getElem?_set_ne hij] at hu
    exact each j u g hu hg

/-- A value of the type of a member is assigned to it. -/
theorem assign? (h : w.HasType σ t) (v : Value) (i : Nat) :
    v.assign? t i w = some (v.setMember i w) := by
  unfold Value.assign?
  rw [if_pos h.type_eq]

/-! ## §4. Enumerations -/

theorem enum_inv (h : v.HasType σ (.enum e)) :
    ∃ i, v = Value.enum e i ∧ i < (σ.enum e).variants.length := by
  cases h with
  | enum declared => exact ⟨_, rfl, declared⟩

theorem variantName? (h : v.HasType σ (.enum e)) : ∃ name, v.variantName? σ e = some name := by
  obtain ⟨i, rfl, _⟩ := h.enum_inv
  exact ⟨_, by simp [Value.variantName?]; rfl⟩

theorem underlying? (h : v.HasType σ (.enum e)) : ∃ n, v.underlying? σ e = some n := by
  obtain ⟨i, rfl, _⟩ := h.enum_inv
  exact ⟨_, by simp [Value.underlying?]; rfl⟩

end Value.HasType

namespace Value

variable {σ : Schema} {e : String} {v : Value}

theorem hasType_ofVariantName? {name : String} (h : ofVariantName? σ e name = some v) :
    v.HasType σ (.enum e) := by
  unfold ofVariantName? EnumDecl.ofName? at h
  obtain ⟨i, hi, rfl⟩ := Option.map_eq_some_iff.mp h
  exact .enum (List.findIdx?_eq_some_iff_getElem.mp hi).1

theorem hasType_ofUnderlying? {n : Int} (h : ofUnderlying? σ e n = some v) :
    v.HasType σ (.enum e) := by
  unfold ofUnderlying? EnumDecl.ofUnderlying? at h
  obtain ⟨i, hi, rfl⟩ := Option.map_eq_some_iff.mp h
  exact .enum (List.findIdx?_eq_some_iff_getElem.mp hi).1

/-! ## §5. Zero -/

theorem hasType_zeroOf (σ : Schema) (p : Primitive) : (zeroOf p).HasType σ (.prim p) := by
  cases p with
  | bool => exact .bool _
  | char => exact .char _
  | int t => exact .int t.holds_zero
  | float t => exact .float t.canonical_zero
  | text => exact .text _

/-- Unfolding past the rank of a record reaches all of its members. -/
theorem hasType_zeroTo (σ : Schema) (n : Nat) (t : Ty)
    (h : ∀ r, t = .record r → σ.rank r < n) : (zeroTo σ n t).HasType σ t := by
  -- By induction on the depth: a record among the members has a lesser rank.
  induction n generalizing t with
  | zero =>
    cases t with
    | prim p => rw [zeroTo]; exact hasType_zeroOf σ p
    | enum e => rw [zeroTo]; exact .enum (by simp [EnumDecl.variants])
    | record r => exact absurd (h r rfl) (Nat.not_lt_zero _)
    | foreign f => rw [zeroTo]; exact .foreign f _
    | option t => rw [zeroTo]; exact .absent t
    | seq t => rw [zeroTo]; exact .seq (by simp)
  | succ n ih =>
    cases t with
    | prim p => rw [zeroTo]; exact hasType_zeroOf σ p
    | enum e => rw [zeroTo]; exact .enum (by simp [EnumDecl.variants])
    | record r =>
      rw [zeroTo]
      refine .record (by simp) ?_
      intro i v f hv hf
      rw [List.getElem?_map, hf] at hv
      cases hv
      refine ih f.type fun r' hr' => ?_
      have hless : σ.rank r' < σ.rank r :=
        σ.contains_lt r r' ⟨f, List.mem_of_getElem? hf, hr'⟩
      have := h r rfl
      omega
    | foreign f => rw [zeroTo]; exact .foreign f _
    | option t => rw [zeroTo]; exact .absent t
    | seq t => rw [zeroTo]; exact .seq (by simp)

/-- **The zero of a type is one of its values.** -/
theorem hasType_zero (σ : Schema) (t : Ty) : (zero σ t).HasType σ t := by
  refine hasType_zeroTo σ _ t fun r hr => ?_
  subst hr
  exact Nat.lt_succ_self _

end Value

/-! ## §6. Scalars -/

namespace Scalar

variable {σ : Schema} {s : Scalar} {v : Value}

theorem hasType_narrow {t : IntType} {n : Int} (h : narrow t n = .ok v) :
    v.HasType σ (.prim (.int t)) := by
  unfold narrow at h
  split at h
  · cases h
    exact .int ‹_›
  · cases h

theorem hasType_narrowFloat {t : FloatType} {x : Binary} (h : narrowFloat t x = .ok v) :
    v.HasType σ (.prim (.float t)) := by
  unfold narrowFloat at h
  dsimp only at h
  split at h
  · cases h
  · cases h
    exact .float (t.canonical_convert x)

/-- **What the table writes** is a value of the target. -/
theorem hasType_write {p : Primitive} (h : s.write p = .ok v) : v.HasType σ (.prim p) := by
  cases p with
  | bool =>
    cases hb : s.toBool .bool with
    | error f => rw [write, hb] at h; cases h
    | ok b => rw [write, hb] at h; cases h; exact .bool b
  | char =>
    cases hc : s.toChar .char with
    | error f => rw [write, hc] at h; cases h
    | ok c => rw [write, hc] at h; cases h; exact .char c
  | int t =>
    cases hn : s.toInt (.int t) with
    | error f => rw [write, hn] at h; cases h
    | ok n => rw [write, hn] at h; exact hasType_narrow h
  | float t =>
    cases hx : s.toFloat (.float t) with
    | error f => rw [write, hx] at h; cases h
    | ok x => rw [write, hx] at h; exact hasType_narrowFloat h
  | text =>
    cases h
    exact .text _

end Scalar

namespace Primitive

variable {σ : Schema} {v : Value}

/-- A well-typed value is read. -/
theorem read?_of_hasType {p : Primitive} (h : v.HasType σ (.prim p)) :
    ∃ s, p.read? v = some s := by
  cases h <;> exact ⟨_, by simp only [read?, Value.type, if_true]; rfl⟩

/-- A cast of a well-typed value gives a value of the target or a fault. -/
theorem cast_of_hasType {a : Primitive} (b : Primitive) (h : v.HasType σ (.prim a)) :
    (∃ f, a.cast b v = .error f) ∨
      ∃ w, a.cast b v = .ok (some w) ∧ w.HasType σ (.prim b) := by
  obtain ⟨s, hs⟩ := read?_of_hasType h
  unfold cast
  rw [hs]
  cases hw : s.write b with
  | error f => exact .inl ⟨f, by simp [hw]⟩
  | ok w => exact .inr ⟨w, by simp [hw], Scalar.hasType_write hw⟩

end Primitive

end RecordMap
