import RecordMap.Proofs.Conversion.Bare

/-!
# Answers of the built-in rules

A conversion that runs no callback and no other mapping has one answer for a value: the same
in every call, with every parameter, and without a trace in the call (`Conversion.Answers`).
Copies, casts and conversions of enumerations are of this kind, and a scope without converters
uses them between leaf types.

A scope answers through the conversion it finds (`Scope.Answers`).  It has one answer at most
(`Scope.Answers.unique`).
-/

namespace RecordMap

variable {σ : Schema} {v w : Value} {r r' : Except MapError (Option Value)} {a b : Ty}

namespace Conversion

variable {c : Conversion} {e : MapError}

/-! ## §1. Answers of a conversion -/

/-- **The answer of a conversion** for a value: what it gives in every call, which it leaves as
it is. -/
def Answers (σ : Schema) (c : Conversion) (v : Value) (r : Except MapError (Option Value)) : Prop :=
  ∀ (ω : Type) (parameter handedOn : Option Value) (nest : Nesting ω) (call : Call ω),
    (c.run σ parameter handedOn nest v).run call = (r, call)

theorem Answers.unique (h : c.Answers σ v r) (h' : c.Answers σ v r') : r = r' := by
  have hr := h Unit none none (fun _ v _ => pure v) { trail := { outside := () } }
  rw [h'] at hr
  exact (Prod.mk.inj hr).1.symm

/-- What was looked for, if it was found, and else an error. -/
def answer (o : Option Value) (e : MapError) : Except MapError (Option Value) :=
  match o with
  | some w => .ok (some w)
  | none => .error e

@[simp] theorem answer_some (e : MapError) : answer (some w) e = .ok (some w) := rfl

@[simp] theorem answer_none (e : MapError) : answer none e = .error e := rfl

theorem run_require {s : Type} (o : Option Value) (e : MapError) (st : s) :
    (some <$> Run.require o e : Run s (Option Value)).run st = (answer o e, st) := by
  cases o <;> rfl

theorem answers_passThrough {t : Ty} (h : v.type = t) :
    (passThrough t).Answers σ v (.ok (some v)) := by
  intro ω parameter handedOn nest call
  rw [Conversion.run, run_require, Value.as?_eq_some_iff.mpr ⟨h, rfl⟩, answer_some]

theorem answers_primitive {p q : Primitive} (h : p.cast q v = .ok (some w)) :
    (primitive p q).Answers σ v (.ok (some w)) := by
  intro ω parameter handedOn nest call
  rw [Conversion.run, castOrFail, h]
  rfl

/-! ## §2. Answers for enumerations -/

variable {e e' name : String} {i : Nat} {n : Int} {J : IntType}

/-- A variant to its name. -/
theorem answers_fromEnum_text :
    (fromEnum e .text).Answers σ (.enum e i) (.ok (some (.text ((σ.enum e).variant i).name))) := by
  intro ω parameter handedOn nest call
  have hname : (Value.enum e i).variantName? σ e = some ((σ.enum e).variant i).name := if_pos rfl
  rw [Conversion.run, variantOut, if_pos rfl, hname]
  rfl

/-- A variant to its underlying integer, if the target holds it. -/
theorem answers_fromEnum_int (hn : ((σ.enum e).variant i).underlying = n) :
    (fromEnum e (.int J)).Answers σ (.enum e i)
      (if J.Holds n then .ok (some (.int J n))
        else .error (fault "enum" J.name (.outOfRange (Text.ofInteger n) (.int J)))) := by
  intro ω parameter handedOn nest call
  have hunderlying : (Value.enum e i).underlying? σ e = some n := by
    rw [← hn]
    exact if_pos rfl
  have hwrite : Scalar.write (.int J) (.int n) = Scalar.narrow J n := rfl
  rw [Conversion.run, variantOut, if_neg (by simp), hunderlying, Run.require_some, pure_bind, hwrite]
  unfold Scalar.narrow
  by_cases h : J.Holds n
  · rw [if_pos h, if_pos h]
    rfl
  · rw [if_neg h, if_neg h]
    rfl

/-- A name to the variant that has it. -/
theorem answers_toEnum_text :
    (toEnum .text e).Answers σ (.text name)
      (answer (Value.ofVariantName? σ e name)
        (.conversion "String" "enum" ("no variant named " ++ Text.quote name))) := by
  intro ω parameter handedOn nest call
  rw [Conversion.run, variantIn, if_pos rfl]
  exact run_require _ _ call

/-- An integer to the variant that has it underlying.  It has to be one of 64 bits. -/
theorem answers_toEnum_int :
    (toEnum (.int J) e).Answers σ (.int J n)
      (answer (if IntType.i64.Holds n then Value.ofUnderlying? σ e n else none)
        (.conversion J.name "enum" ("no variant with value " ++ Text.ofInteger n))) := by
  intro ω parameter handedOn nest call
  have hread : (Primitive.int J).read? (.int J n) = some (.int n) := if_pos rfl
  rw [Conversion.run]
  unfold variantIn
  rw [if_neg (by simp), hread, Run.require_some, pure_bind]
  show (some <$> Run.require (if underlyingRange n then Value.ofUnderlying? σ e n else none) _).run
    call = _
  rw [run_require, underlyingRange]
  simp only [decide_eq_true_eq]
  rfl

/-- A variant to the one of the same name. -/
theorem answers_enumToEnum :
    (enumToEnum e e').Answers σ (.enum e i)
      (answer (Value.ofVariantName? σ e' ((σ.enum e).variant i).name)
        (.conversion "enum" "enum" ("no variant named " ++ ((σ.enum e).variant i).name))) := by
  intro ω parameter handedOn nest call
  have hname : (Value.enum e i).variantName? σ e = some ((σ.enum e).variant i).name := if_pos rfl
  rw [Conversion.run, variantAcross, hname, Run.require_some, pure_bind]
  exact run_require _ _ call

end Conversion

/-! ## §3. Answers of a scope -/

namespace Scope

variable {S : Scope}

/-- **The answer of a scope** for a value of the source type. -/
def Answers (S : Scope) (σ : Schema) (a b : Ty) (v : Value) (r : Except MapError (Option Value)) :
    Prop :=
  ∃ c, S.resolve a b = some c ∧ c.Answers σ v r

theorem Answers.unique (h : S.Answers σ a b v r) (h' : S.Answers σ a b v r') : r = r' := by
  obtain ⟨c, hc, hr⟩ := h
  obtain ⟨c', hc', hr'⟩ := h'
  rw [hc] at hc'
  cases hc'
  exact hr.unique hr'

/-- An answer is given just if it is the one there is. -/
theorem Answers.iff_eq (h : S.Answers σ a b v r) : S.Answers σ a b v r' ↔ r' = r := by
  constructor
  · intro h'
    exact h'.unique h
  · intro heq
    rw [heq]
    exact h

theorem answers_self {t : Ty} (h : v.type = t) : S.Answers σ t t v (.ok (some v)) :=
  ⟨.passThrough t, S.resolve_self t, Conversion.answers_passThrough h⟩

/-- Between different leaf types there is the built-in step, or nothing. -/
theorem Bare.resolve_leaf (hS : S.Bare) (ha : a.isContainer = false) (hb : b.isContainer = false)
    (hab : a ≠ b) : S.resolve a b = S.leaf? a b := by
  unfold resolve
  rw [if_neg hab, hS.custom?, Option.none_or]
  split
  · cases ha
  · cases ha
  · cases hb
  · cases ha
  · rfl

end Scope

end RecordMap
