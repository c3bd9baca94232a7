import RecordMap.Proofs.Conversion.Builtin
import RecordMap.Proofs.Conversion.Exact
import RecordMap.Proofs.Typing.Value

/-!
# Enumerations by name and by number

A variant is known by its position, by its name and by its underlying integer.  Where names and
integers are distinct, each of them leads to one variant only, so that the five conversions of an
enumeration agree: out to an integer type and back in, out to a name and back in, and over to
another enumeration, which is by name (`Scope.variants_agree`).

Integers come in through a word of 64 bits.  As every underlying integer is one of these, an
integer outside of the word belongs to no variant, and is refused like all the others that do not.
-/

namespace RecordMap

namespace EnumDecl

variable {d : EnumDecl} {i : Nat} {n : Int} {name : String}

/-! ## §1. Declarations -/

/-- **A lawful declaration**: names and underlying integers are distinct, and the integers
are signed ones of 64 bits. -/
structure Lawful (d : EnumDecl) : Prop where
  names : (d.variants.map (·.name)).Nodup
  underlying : (d.variants.map (·.underlying)).Nodup
  word : ∀ x ∈ d.variants, IntType.i64.Holds x.underlying

theorem variant_eq_getElem (h : i < d.variants.length) : d.variant i = d.variants[i] := by
  rw [variant, List.getElem?_eq_getElem h, Option.getD_some]

/-- With distinct keys, the first variant of a key is the only one. -/
theorem findIdx?_eq_some_iff_of_nodup {κ : Type} [BEq κ] [LawfulBEq κ] {key : Variant → κ} {k : κ}
    (hd : (d.variants.map key).Nodup) :
    d.variants.findIdx? (key · == k) = some i ↔
      i < d.variants.length ∧ key (d.variant i) = k := by
  rw [List.findIdx?_eq_some_iff_getElem]
  constructor
  · intro h
    obtain ⟨hi, hk, -⟩ := h
    rw [variant_eq_getElem hi]
    exact ⟨hi, eq_of_beq hk⟩
  · intro h
    obtain ⟨hi, hk⟩ := h
    rw [variant_eq_getElem hi] at hk
    refine ⟨hi, beq_iff_eq.mpr hk, ?_⟩
    intro j hji hj
    have hi' : i < (d.variants.map key).length := by simpa using hi
    have hj' : j < (d.variants.map key).length := by omega
    have hsame : (d.variants.map key)[j] = (d.variants.map key)[i] := by
      rw [List.getElem_map, List.getElem_map, hk]
      exact eq_of_beq hj
    have heq : j = i := hd.getElem_inj_iff.mp hsame
    omega

theorem ofName?_eq_some_iff (hd : (d.variants.map (·.name)).Nodup) :
    d.ofName? name = some i ↔ i < d.variants.length ∧ (d.variant i).name = name :=
  findIdx?_eq_some_iff_of_nodup hd

theorem Lawful.ofUnderlying?_eq_some_iff (hd : d.Lawful) :
    d.ofUnderlying? n = some i ↔ i < d.variants.length ∧ (d.variant i).underlying = n :=
  findIdx?_eq_some_iff_of_nodup hd.underlying

/-- An integer outside of the word belongs to no variant. -/
theorem Lawful.ofUnderlying?_eq_none (hd : d.Lawful) (hn : ¬IntType.i64.Holds n) :
    d.ofUnderlying? n = none := by
  rw [Option.eq_none_iff_forall_ne_some]
  intro i hi
  obtain ⟨hlt, rfl⟩ := hd.ofUnderlying?_eq_some_iff.mp hi
  rw [variant_eq_getElem hlt] at hn
  exact hn (hd.word _ (List.getElem_mem hlt))

end EnumDecl

namespace Value

variable {σ : Schema} {e name : String} {i : Nat} {n : Int} {w : Value}

theorem ofUnderlying?_eq_some_iff (he : (σ.enum e).Lawful) :
    ofUnderlying? σ e n = some w ↔ ∃ i, w = enum e i ∧ i < (σ.enum e).variants.length ∧
      ((σ.enum e).variant i).underlying = n := by
  simp only [ofUnderlying?, Option.map_eq_some_iff, he.ofUnderlying?_eq_some_iff]
  constructor
  · rintro ⟨i, hi, rfl⟩
    exact ⟨i, rfl, hi⟩
  · rintro ⟨i, rfl, hi⟩
    exact ⟨i, hi, rfl⟩

/-- The name of a variant leads back to it. -/
theorem ofVariantName?_name (he : ((σ.enum e).variants.map (·.name)).Nodup)
    (hi : i < (σ.enum e).variants.length) :
    ofVariantName? σ e ((σ.enum e).variant i).name = some (enum e i) := by
  have hfound : (σ.enum e).ofName? ((σ.enum e).variant i).name = some i :=
    (EnumDecl.ofName?_eq_some_iff he).mpr ⟨hi, rfl⟩
  rw [ofVariantName?, hfound, Option.map_some]

end Value

namespace Scope

variable {σ : Schema} {S : Scope} {e e' name : String} {i : Nat} {n : Int} {J : IntType}

/-! ## §2. What a scope without converters answers -/

open Conversion (answer)

theorem Bare.answers_name (hS : S.Bare) :
    S.Answers σ (.enum e) (.prim .text) (.enum e i)
      (.ok (some (.text ((σ.enum e).variant i).name))) :=
  ⟨.fromEnum e .text, hS.resolve_leaf rfl rfl (by simp), Conversion.answers_fromEnum_text⟩

theorem Bare.answers_of_name (hS : S.Bare) :
    S.Answers σ (.prim .text) (.enum e) (.text name)
      (answer (Value.ofVariantName? σ e name)
        (.conversion "String" "enum" ("no variant named " ++ Text.quote name))) :=
  ⟨.toEnum .text e, hS.resolve_leaf rfl rfl (by simp), Conversion.answers_toEnum_text⟩

theorem Bare.answers_underlying (hS : S.Bare) (hn : ((σ.enum e).variant i).underlying = n) :
    S.Answers σ (.enum e) (.prim (.int J)) (.enum e i)
      (if J.Holds n then .ok (some (.int J n))
        else .error (Conversion.fault "enum" J.name (.outOfRange (Text.ofInteger n) (.int J)))) :=
  ⟨.fromEnum e (.int J), hS.resolve_leaf rfl rfl (by simp), Conversion.answers_fromEnum_int hn⟩

/-- The word that integers come in through makes no difference. -/
theorem Bare.answers_of_underlying (hS : S.Bare) (he : (σ.enum e).Lawful) :
    S.Answers σ (.prim (.int J)) (.enum e) (.int J n)
      (answer (Value.ofUnderlying? σ e n)
        (.conversion J.name "enum" ("no variant with value " ++ Text.ofInteger n))) := by
  have hword : (if IntType.i64.Holds n then Value.ofUnderlying? σ e n else none) =
      Value.ofUnderlying? σ e n := by
    by_cases h : IntType.i64.Holds n
    · rw [if_pos h]
    · rw [if_neg h, Value.ofUnderlying?, he.ofUnderlying?_eq_none h, Option.map_none]
  refine ⟨.toEnum (.int J) e, hS.resolve_leaf rfl rfl (by simp), ?_⟩
  rw [← hword]
  exact Conversion.answers_toEnum_int

theorem Bare.answers_same_name (hS : S.Bare) (hne : e ≠ e') :
    S.Answers σ (.enum e) (.enum e') (.enum e i)
      (answer (Value.ofVariantName? σ e' ((σ.enum e).variant i).name)
        (.conversion "enum" "enum" ("no variant named " ++ ((σ.enum e).variant i).name))) :=
  ⟨.enumToEnum e e', hS.resolve_leaf rfl rfl (by simpa), Conversion.answers_enumToEnum⟩

/-! ## §3. Agreement -/

theorem answer_eq_ok_iff {o : Option Value} {err : MapError} {w : Value} :
    .ok (some w) = answer o err ↔ o = some w := by
  cases o <;> simp [answer, eq_comm]

/-- A variant goes out to the integer types that hold its underlying integer. -/
theorem Bare.answers_int_iff (hS : S.Bare) :
    (∃ out, S.Answers σ (.enum e) (.prim (.int J)) (.enum e i) (.ok out)) ↔
      J.Holds ((σ.enum e).variant i).underlying := by
  have hanswer := hS.answers_underlying (σ := σ) (e := e) (i := i) (J := J) rfl
  by_cases h : J.Holds ((σ.enum e).variant i).underlying
  · rw [if_pos h] at hanswer
    exact ⟨fun _ => h, fun _ => ⟨_, hanswer⟩⟩
  · rw [if_neg h] at hanswer
    constructor
    · intro hout
      obtain ⟨out, hout⟩ := hout
      cases hout.unique hanswer
    · intro hholds
      exact absurd hholds h

/-- An integer that comes in is the variant it belongs to. -/
theorem Bare.answers_variant_iff (hS : S.Bare) (he : (σ.enum e).Lawful) {w : Value} :
    S.Answers σ (.prim (.int J)) (.enum e) (.int J n) (.ok (some w)) ↔
      ∃ i, w = .enum e i ∧ i < (σ.enum e).variants.length ∧
        ((σ.enum e).variant i).underlying = n := by
  rw [(hS.answers_of_underlying he).iff_eq, answer_eq_ok_iff, Value.ofUnderlying?_eq_some_iff he]

/-- An integer is refused if it belongs to no variant. -/
theorem Bare.answers_refusal_iff (hS : S.Bare) (he : (σ.enum e).Lawful) :
    (∃ reason, S.Answers σ (.prim (.int J)) (.enum e) (.int J n)
        (.error (.conversion J.name "enum" reason))) ↔
      ∀ i < (σ.enum e).variants.length, ((σ.enum e).variant i).underlying ≠ n := by
  have hanswer := hS.answers_of_underlying (J := J) (n := n) he
  constructor
  · intro h i hi hn
    obtain ⟨reason, h⟩ := h
    cases h.unique ((hS.answers_variant_iff he).mpr ⟨i, rfl, hi, hn⟩)
  · intro h
    have hnone : Value.ofUnderlying? σ e n = none := by
      rw [Option.eq_none_iff_forall_ne_some]
      intro w hw
      obtain ⟨i, -, hi, hn⟩ := (Value.ofUnderlying?_eq_some_iff he).mp hw
      exact h i hi hn
    rw [hnone] at hanswer
    exact ⟨_, hanswer⟩

theorem Bare.answers_of_name_iff (hS : S.Bare) {w : Value} :
    S.Answers σ (.prim .text) (.enum e) (.text name) (.ok (some w)) ↔
      Value.ofVariantName? σ e name = some w := by
  rw [hS.answers_of_name.iff_eq, answer_eq_ok_iff]

/-- Over to an enumeration, the same one or another, leads the name of the variant. -/
theorem Bare.answers_across_iff (hS : S.Bare) (he : (σ.enum e).Lawful)
    (hi : i < (σ.enum e).variants.length) {w : Value} :
    S.Answers σ (.enum e) (.enum e') (.enum e i) (.ok (some w)) ↔
      Value.ofVariantName? σ e' ((σ.enum e).variant i).name = some w := by
  by_cases hne : e = e'
  · subst hne
    have hself : S.Answers σ (.enum e) (.enum e) (.enum e i) (.ok (some (.enum e i))) :=
      answers_self rfl
    rw [hself.iff_eq, Value.ofVariantName?_name he.names hi]
    simp [eq_comm]
  · rw [(hS.answers_same_name hne).iff_eq, answer_eq_ok_iff]

theorem Bare.answers_through_name_iff (hS : S.Bare) {w : Value} :
    (∃ name, S.Answers σ (.enum e) (.prim .text) (.enum e i) (.ok (some (.text name))) ∧
        S.Answers σ (.prim .text) (.enum e') (.text name) (.ok (some w))) ↔
      Value.ofVariantName? σ e' ((σ.enum e).variant i).name = some w := by
  have hname := hS.answers_name (σ := σ) (e := e) (i := i)
  constructor
  · intro h
    obtain ⟨name, hout, hin⟩ := h
    cases hout.unique hname
    exact hS.answers_of_name_iff.mp hin
  · intro h
    exact ⟨_, hname, hS.answers_of_name_iff.mpr h⟩

/-- **The conversions of enumerations agree.**

Take a scope without converters and operators, a lawful enumeration and one of its variants.

The variant converts to an integer type just if the type holds its underlying integer.  It
becomes this integer, which converts back to the variant.

An integer of any integer type converts to the variant with this underlying integer, and is
refused with a conversion error just if there is none.

The variant converts to one of another enumeration just if it converts to a text that converts
to the other, and then both ways lead to the same. -/
theorem variants_agree (σ : Schema) (S : Scope) (hS : S.Bare) (e : String)
    (he : (σ.enum e).Lawful) (i : Nat) (hi : i < (σ.enum e).variants.length) (J : IntType) :
    ((∃ out, S.Answers σ (.enum e) (.prim (.int J)) (.enum e i) (.ok out)) ↔
        J.Holds ((σ.enum e).variant i).underlying) ∧
      (∀ n, J.Holds n → ((σ.enum e).variant i).underlying = n →
        S.Answers σ (.enum e) (.prim (.int J)) (.enum e i) (.ok (some (.int J n))) ∧
        S.Answers σ (.prim (.int J)) (.enum e) (.int J n) (.ok (some (.enum e i)))) ∧
      (∀ n w, S.Answers σ (.prim (.int J)) (.enum e) (.int J n) (.ok (some w)) ↔
        ∃ k, w = .enum e k ∧ k < (σ.enum e).variants.length ∧
          ((σ.enum e).variant k).underlying = n) ∧
      (∀ n, (∃ reason, S.Answers σ (.prim (.int J)) (.enum e) (.int J n)
          (.error (.conversion J.name "enum" reason))) ↔
        ∀ k < (σ.enum e).variants.length, ((σ.enum e).variant k).underlying ≠ n) ∧
      (∀ e' w, S.Answers σ (.enum e) (.enum e') (.enum e i) (.ok (some w)) ↔
        ∃ name, S.Answers σ (.enum e) (.prim .text) (.enum e i) (.ok (some (.text name))) ∧
          S.Answers σ (.prim .text) (.enum e') (.text name) (.ok (some w))) := by
  refine ⟨hS.answers_int_iff, ?back, fun n w => hS.answers_variant_iff he,
    fun n => hS.answers_refusal_iff he, ?across⟩
  case back =>
    intro n hholds hn
    have hout := hS.answers_underlying (J := J) hn
    rw [if_pos hholds] at hout
    exact ⟨hout, (hS.answers_variant_iff he).mpr ⟨i, rfl, hi, hn⟩⟩
  case across =>
    intro e' w
    rw [hS.answers_across_iff he hi, hS.answers_through_name_iff]

/-- The two ends of the scale have the extreme integers of the word. -/
def scaleSchema : Schema where
  naming := ⟨"Text", "Option", "List"⟩
  record _ := {}
  enum
    | "Scale" =>
      { first := { name := "Floor", underlying := IntType.i64.lo }
        others := [{ name := "Below", underlying := -3 },
          { name := "Ceiling", underlying := IntType.i64.hi }] }
    | _ => { first := { name := "Ceiling", underlying := 1 } }
  rank _ := 0
  contains_lt := by
    rintro r r' ⟨f, hf, -⟩
    cases hf

theorem bare_empty : Scope.Bare {} := ⟨rfl, rfl, rfl⟩

theorem lawful_scale : (scaleSchema.enum "Scale").Lawful := by
  constructor
  · decide
  · decide
  · decide

/-- The top of the scale needs the whole word, comes back from there, and is the one variant
that another scale has as well. -/
theorem variants_agree_scale :
    Scope.Bare {} ∧ (scaleSchema.enum "Scale").Lawful ∧
      2 < (scaleSchema.enum "Scale").variants.length ∧ IntType.u64.Holds IntType.i64.hi ∧
      Scope.Answers {} scaleSchema (.prim (.int .u64)) (.enum "Scale") (.int .u64 IntType.i64.hi)
        (.ok (some (.enum "Scale" 2))) ∧
      (∃ reason, Scope.Answers {} scaleSchema (.prim (.int .u64)) (.enum "Scale")
        (.int .u64 IntType.u64.hi) (.error (.conversion "u64" "enum" reason))) ∧
      ∃ name, Scope.Answers {} scaleSchema (.prim .text) (.enum "Other") (.text name)
        (.ok (some (.enum "Other" 0))) := by
  have hi : 2 < (scaleSchema.enum "Scale").variants.length := by decide
  have hholds : IntType.u64.Holds IntType.i64.hi := by decide
  obtain ⟨-, hback, -, hrefused, hacross⟩ :=
    variants_agree scaleSchema {} bare_empty "Scale" lawful_scale 2 hi .u64
  have hover : Scope.Answers {} scaleSchema (.enum "Scale") (.enum "Other") (.enum "Scale" 2)
      (.ok (some (.enum "Other" 0))) :=
    (bare_empty.answers_across_iff lawful_scale hi).mpr rfl
  obtain ⟨name, -, hname⟩ := (hacross "Other" (.enum "Other" 0)).mp hover
  exact ⟨bare_empty, lawful_scale, hi, hholds, (hback _ hholds rfl).2,
    (hrefused IntType.u64.hi).mpr (by decide), name, hname⟩

end Scope

end RecordMap
