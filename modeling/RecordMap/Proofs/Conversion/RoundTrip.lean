import RecordMap.Proofs.Conversion.Reading
import RecordMap.Proofs.Conversion.Variants

/-!
# Through text and back

Whatever has a text form of its own comes back from it: truth values, characters, integers,
texts, and variants, which go by their names.  Around such leaves, sequences and options come
back as well, leaf by leaf, since a conversion between wrapped types gives a value of the same
structure with converted leaves (`Wrapper.Each`).

Structure is lost in one place only, where an option lies directly inside an option, and an
empty option on the outside is left to whoever asked.  Wrappers of neither kind are *firm*, and
for these the round trip is `Scope.text_roundTrip`.
-/

namespace RecordMap

/-! ## §1. Casts to text and back -/

/-- **A cast to text is undone** by the cast back, for all values but floats. -/
theorem Primitive.cast_text_roundTrip {σ : Schema} {p : Primitive} {v : Value}
    (hp : ∀ f, p ≠ .float f) (hv : v.HasType σ (.prim p)) :
    ∃ s, p.cast .text v = .ok (some (.text s)) ∧ cast .text p (.text s) = .ok (some v) := by
  cases hv with
  | bool b =>
    cases b with
    | true => exact ⟨"true", by rfl, by rfl⟩
    | false => exact ⟨"false", by rfl, by rfl⟩
  | char c =>
    refine ⟨String.singleton c, rfl, ?_⟩
    have hread : Scalar.toChar .char (.text (String.singleton c)) = .ok c := by
      simp [Scalar.toChar]
    rw [cast_of_read? _ (read?_text _)]
    show some <$> Value.char <$> Scalar.toChar .char (.text (String.singleton c)) = _
    rw [hread]
    rfl
  | int holds =>
    rename_i J n
    refine ⟨toString n, cast_int_text J n, ?_⟩
    exact (cast_text_int_eq_ok_iff J _ _).mpr ⟨n, Text.spells_toString n, holds, rfl⟩
  | float _ => exact absurd rfl (hp _)
  | text s => exact ⟨s, rfl, rfl⟩

namespace Wrapper

variable {σ : Schema} {R : Value → Value → Prop} {W : Wrapper} {a b t : Ty} {v w : Value}

/-! ## §2. Values leaf by leaf -/

/-- **The same structure around related leaves.** -/
def Each (R : Value → Value → Prop) (a b : Ty) : Wrapper → Value → Value → Prop
  | bare, v, w => R v w
  | option W, v, w => (v = .absent (W.ty a) ∧ w = .absent (W.ty b)) ∨
      ∃ v' w', v = .present v' ∧ w = .present w' ∧ Each R a b W v' w'
  | seq W, v, w => ∃ vs ws, v = .seq (W.ty a) vs ∧ w = .seq (W.ty b) ws ∧
      List.Forall₂ (Each R a b W) vs ws

/-- Seen from the other side, the leaves are related the other way. -/
theorem Each.flip (h : W.Each R a b v w) : W.Each (fun u u' => R u' u) b a w v := by
  induction W generalizing v w with
  | bare => exact h
  | option W ih =>
    rcases h with ⟨rfl, rfl⟩ | ⟨v', w', rfl, rfl, hin⟩
    · exact .inl ⟨rfl, rfl⟩
    · exact .inr ⟨w', v', rfl, rfl, ih hin⟩
  | seq W ih =>
    obtain ⟨vs, ws, rfl, rfl, hitems⟩ := h
    exact ⟨ws, vs, rfl, rfl, (hitems.imp fun v w hvw => ih hvw).flip⟩

theorem Each.mono {R' : Value → Value → Prop} (h : W.Each R a b v w)
    (hR : ∀ u u', R u u' → R' u u') : W.Each R' a b v w := by
  induction W generalizing v w with
  | bare => exact hR _ _ h
  | option W ih =>
    rcases h with hempty | ⟨v', w', hv, hw, hin⟩
    · exact .inl hempty
    · exact .inr ⟨v', w', hv, hw, ih hin⟩
  | seq W ih =>
    obtain ⟨vs, ws, hv, hw, hitems⟩ := h
    exact ⟨vs, ws, hv, hw, hitems.imp fun v w hvw => ih hvw⟩

/-- If leaves are of the target type, so is the whole. -/
theorem Each.type_eq (h : W.Each R a b v w) (hR : ∀ u u', R u u' → u'.type = b) :
    w.type = W.ty b := by
  induction W generalizing v w with
  | bare => exact hR _ _ h
  | option W ih =>
    rcases h with ⟨-, rfl⟩ | ⟨v', w', -, rfl, hin⟩
    · rfl
    · show Ty.option w'.type = .option (W.ty b)
      rw [ih hin]
  | seq W ih =>
    obtain ⟨vs, ws, -, rfl, -⟩ := h
    rfl

theorem Each.eq (h : W.Each R a a v w) (hR : ∀ u u', R u u' → u = u') : v = w := by
  induction W generalizing v w with
  | bare => exact hR _ _ h
  | option W ih =>
    rcases h with ⟨rfl, rfl⟩ | ⟨v', w', rfl, rfl, hin⟩
    · rfl
    · rw [ih hin]
  | seq W ih =>
    obtain ⟨vs, ws, rfl, rfl, hitems⟩ := h
    have hsame : vs = ws := by
      rw [← List.forall₂_eq_eq_eq]
      exact hitems.imp fun v w hvw => ih hvw
    rw [hsame]

theorem exists_forall₂ {R : Value → Value → Prop} {vs : List Value} (h : ∀ v ∈ vs, ∃ w, R v w) :
    ∃ ws, List.Forall₂ R vs ws := by
  induction vs with
  | nil => exact ⟨[], .nil⟩
  | cons v vs ih =>
    obtain ⟨hv, hvs⟩ := List.forall_mem_cons.mp h
    obtain ⟨w, hw⟩ := hv
    obtain ⟨ws, hws⟩ := ih hvs
    exact ⟨w :: ws, .cons hw hws⟩

/-- **Every value has a counterpart** if every leaf has one. -/
theorem exists_each (hR : ∀ u : Value, u.HasType σ a → ∃ u', R u u')
    (hv : v.HasType σ (W.ty a)) : ∃ w, W.Each R a b v w := by
  induction W generalizing v with
  | bare => exact hR v hv
  | option W ih =>
    rcases hv.option_cases with rfl | ⟨v', rfl, hin⟩
    · exact ⟨.absent (W.ty b), .inl ⟨rfl, rfl⟩⟩
    · obtain ⟨w', hw'⟩ := ih hin
      exact ⟨.present w', .inr ⟨v', w', rfl, rfl, hw'⟩⟩
  | seq W ih =>
    obtain ⟨items, rfl, each⟩ := hv.seq_inv
    obtain ⟨ws, hws⟩ := exists_forall₂ fun v hv => ih (each v hv)
    exact ⟨.seq (W.ty b) ws, items, ws, rfl, rfl, hws⟩

/-! ## §3. Conversions leaf by leaf -/

/-- The outermost layer is an option. -/
def isOption : Wrapper → Bool
  | option _ => true
  | _ => false

/-- No option lies directly inside an option. -/
def unstacked : Wrapper → Bool
  | bare => true
  | option W => !W.isOption && W.unstacked
  | seq W => W.unstacked

/-- **Firm wrappers** lose no structure in a conversion. -/
def Firm (W : Wrapper) : Prop := W.unstacked = true ∧ W.isOption = false

instance (W : Wrapper) : Decidable W.Firm := inferInstanceAs (Decidable (_ ∧ _))

-- Lists are firm, and so are lists with missing elements.
example : (seq bare).Firm ∧ (seq (option bare)).Firm := by decide

/-- A traversal that finds an answer for each element finds all of them. -/
theorem run_answers {ω : Type} {f : Value → Run (Call ω) Value} {call : Call ω}
    {vs ws : List Value}
    (h : List.Forall₂ (fun v w => (f v).run call = (.ok w, call)) vs ws) :
    (vs.mapM f).run call = (.ok ws, call) := by
  induction h with
  | nil => rfl
  | cons hv _ ih =>
    rw [List.mapM_cons, Run.run_bind_ok hv, Run.run_bind_ok ih]
    rfl

variable {leaf : Conversion}

/-- **Around leaves that are converted**, the wrapped conversion gives the same structure.  It
leaves an empty option on the outside to whoever asked. -/
theorem Each.answers_around (h : W.Each R a b v w) (hW : W.unstacked = true)
    (hR : ∀ u u', R u u' → u.type = a ∧ u'.type = b ∧ leaf.Answers σ u (.ok (some u'))) :
    ∃ o, (W.around a b leaf).Answers σ v (.ok o) ∧ o.getD (Value.zero σ (W.ty b)) = w ∧
      (W.isOption = false → o = some w) := by
  induction W generalizing v w with
  | bare => exact ⟨some w, (hR v w h).2.2, rfl, fun _ => rfl⟩
  | option W ih =>
    obtain ⟨hlayer, hrest⟩ : W.isOption = false ∧ W.unstacked = true := by simpa [unstacked] using hW
    rcases h with ⟨rfl, rfl⟩ | ⟨v', w', rfl, rfl, hin⟩
    · refine ⟨none, ?_, rfl, nofun⟩
      intro ω parameter handedOn nest call
      rw [around, Conversion.run]
      rfl
    · obtain ⟨o, hrun, -, hsome⟩ := ih hin hrest
      rw [hsome hlayer] at hrun
      have hv' : v'.type = W.ty a := hin.flip.type_eq fun u u' hu => (hR u' u hu).1
      have hw' : w'.type = W.ty b := hin.type_eq fun u u' hu => (hR u u' hu).2.1
      refine ⟨some (.present w'), ?_, rfl, fun _ => rfl⟩
      intro ω parameter handedOn nest call
      rw [around, Conversion.run, Value.content?_present hv']
      show (Conversion.run σ parameter handedOn nest (.wrap _ _) v').run call = _
      rw [Conversion.run, Run.run_bind_ok (hrun ω parameter handedOn nest call)]
      show (some <$> Run.require (w'.wrap? (W.ty b)) _).run call = _
      rw [Conversion.run_require, Value.wrap?_eq_some_iff.mpr ⟨hw', rfl⟩]
      rfl
  | seq W ih =>
    obtain ⟨vs, ws, rfl, rfl, hitems⟩ := h
    refine ⟨some (.seq (W.ty b) ws), ?_, rfl, fun _ => rfl⟩
    intro ω parameter handedOn nest call
    have hfound : (Value.seq (W.ty a) vs).items? (W.ty a) = some vs := if_pos rfl
    have htyped : ∀ w ∈ ws, w.type = W.ty b := by
      have hpairs : List.Forall₂ (fun w v => w.type = W.ty b ∧ W.Each R a b v w) ws vs :=
        hitems.flip.imp fun w v hvw => ⟨hvw.type_eq fun u u' hu => (hR u u' hu).2.1, hvw⟩
      exact ((List.forall₂_and_left ws vs).mp hpairs).1
    have hcollect : Value.collect? (W.ty b) ws = some (.seq (W.ty b) ws) := by
      unfold Value.collect?
      rw [if_pos]
      simpa using htyped
    have heach : List.Forall₂ (fun v w => ((do
        return (← (W.around a b leaf).run σ parameter handedOn nest v).getD
          (Value.zero σ (W.ty b)) : Run (Call ω) Value)).run call = (.ok w, call)) vs ws := by
      refine hitems.imp fun v w hvw => ?_
      obtain ⟨o, hrun, ho, -⟩ := ih hvw hW
      rw [Run.run_bind_ok (hrun ω parameter handedOn nest call), ho]
      rfl
    rw [around, Conversion.run, hfound, Run.require_some, pure_bind,
      Run.run_bind_ok (run_answers heach), hcollect]
    rfl

end Wrapper

namespace Scope

variable {σ : Schema} {S : Scope} {t : Ty} {W : Wrapper} {v w : Value}

/-! ## §4. Round trips -/

/-- **Types with a text form of their own**: the primitives but for the floats, and the
enumerations whose variants have distinct names. -/
inductive Spelled (σ : Schema) : Ty → Prop where
  | prim {p : Primitive} (exact : ∀ f, p ≠ .float f) : Spelled σ (.prim p)
  | enum {e : String} (names : ((σ.enum e).variants.map (·.name)).Nodup) : Spelled σ (.enum e)

/-- The value converts to the other one, a text, and this one converts back to it. -/
def Exchanges (S : Scope) (σ : Schema) (t : Ty) (v w : Value) : Prop :=
  S.Answers σ t (.prim .text) v (.ok (some w)) ∧ S.Answers σ (.prim .text) t w (.ok (some v))

theorem Bare.answers_primitive (hS : S.Bare) {p q : Primitive} (hpq : p ≠ q)
    (hconverts : p.convertsTo q = true) (h : p.cast q v = .ok (some w)) :
    S.Answers σ (.prim p) (.prim q) v (.ok (some w)) := by
  have hleaf : S.leaf? (.prim p) (.prim q) = some (.primitive p q) := by
    rw [leaf?, if_pos hconverts]
  exact ⟨.primitive p q, by rw [hS.resolve_leaf rfl rfl (by simpa), hleaf],
    Conversion.answers_primitive h⟩

/-- **Every value of a spelled type** is exchanged with a text, a variant with its name. -/
theorem Bare.exchanges_leaf (hS : S.Bare) (ht : Spelled σ t) (hv : v.HasType σ t) :
    ∃ s, S.Exchanges σ t v (.text s) := by
  cases ht with
  | @prim p exact =>
    obtain ⟨s, hto, hback⟩ := Primitive.cast_text_roundTrip exact hv
    by_cases hp : p = .text
    · subst hp
      obtain ⟨s, rfl⟩ : ∃ s, v = .text s := by
        cases hv
        exact ⟨_, rfl⟩
      exact ⟨s, answers_self rfl, answers_self rfl⟩
    · have hconverts : p.convertsTo .text = true ∧ Primitive.text.convertsTo p = true := by
        cases p <;> exact ⟨rfl, rfl⟩
      exact ⟨s, hS.answers_primitive hp hconverts.1 hto,
        hS.answers_primitive (Ne.symm hp) hconverts.2 hback⟩
  | enum names =>
    obtain ⟨i, rfl, hi⟩ := hv.enum_inv
    refine ⟨_, hS.answers_name, ?_⟩
    rw [hS.answers_of_name_iff]
    exact Value.ofVariantName?_name names hi

theorem Bare.keyedOnLeaves (hS : S.Bare) : S.KeyedOnLeaves := by
  intro a b k hk
  simp [ConverterTable.get?, hS.mapping, hS.defaults, hS.operators] at hk

/-- What is found between firm wrappers of two types answers leaf by leaf. -/
theorem Bare.answers_each {a b : Ty} {leaf : Conversion} (hS : S.Bare) (hab : a ≠ b)
    (hleaf : S.resolve a b = some leaf) (hW : W.Firm) {R : Value → Value → Prop}
    (h : W.Each R a b v w)
    (hR : ∀ u u', R u u' → u.type = a ∧ u'.type = b ∧ S.Answers σ a b u (.ok (some u'))) :
    S.Answers σ (W.ty a) (W.ty b) v (.ok (some w)) := by
  have hrun : ∀ u u', R u u' → u.type = a ∧ u'.type = b ∧ leaf.Answers σ u (.ok (some u')) := by
    intro u u' hu
    obtain ⟨hua, hub, c, hc, hanswers⟩ := hR u u' hu
    rw [hleaf] at hc
    cases hc
    exact ⟨hua, hub, hanswers⟩
  obtain ⟨o, ho, -, hsome⟩ := h.answers_around hW.1 hrun
  rw [hsome hW.2] at ho
  refine ⟨W.around a b leaf, ?_, ho⟩
  rw [hS.keyedOnLeaves.resolve_around hab, hleaf, Option.map_some]

/-- Texts are exchanged with themselves. -/
theorem exchanges_texts (hv : v.HasType σ (W.ty (.prim .text))) :
    W.Each (S.Exchanges σ (.prim .text)) (.prim .text) (.prim .text) v v := by
  have hself : ∀ u : Value, u.HasType σ (.prim .text) →
      ∃ u', u = u' ∧ S.Exchanges σ (.prim .text) u u' :=
    fun u hu => ⟨u, rfl, answers_self hu.type_eq, answers_self hu.type_eq⟩
  obtain ⟨w, hw⟩ := Wrapper.exists_each (b := .prim .text) hself hv
  have hsame : v = w := hw.eq fun u u' hu => hu.1
  rw [← hsame] at hw
  exact hw.mono fun u u' hu => hu.2

/-- **Through a text form and back**, inside of any firm wrapper. -/
theorem Bare.exchanges_each (hS : S.Bare) (ht : Spelled σ t) (hW : W.Firm)
    (hv : v.HasType σ (W.ty t)) :
    ∃ w, W.Each (S.Exchanges σ t) t (.prim .text) v w ∧
      S.Answers σ (W.ty t) (W.ty (.prim .text)) v (.ok (some w)) ∧
      S.Answers σ (W.ty (.prim .text)) (W.ty t) w (.ok (some v)) := by
  by_cases htext : t = .prim .text
  · subst htext
    exact ⟨v, exchanges_texts hv, answers_self hv.type_eq, answers_self hv.type_eq⟩
  · -- There are values of every type, so the conversions of the leaves are found.
    obtain ⟨-, ⟨out, hout, -⟩, back, hback, -⟩ := hS.exchanges_leaf ht (Value.hasType_zero σ t)
    have hleaf : ∀ u : Value, u.HasType σ t →
        ∃ u', u.type = t ∧ u'.type = .prim .text ∧ S.Exchanges σ t u u' := by
      intro u hu
      obtain ⟨s, hs⟩ := hS.exchanges_leaf ht hu
      exact ⟨.text s, hu.type_eq, rfl, hs⟩
    obtain ⟨w, hw⟩ := Wrapper.exists_each (b := .prim .text) hleaf hv
    refine ⟨w, hw.mono fun u u' hu => hu.2.2, ?_, ?_⟩
    · exact hS.answers_each htext hout hW hw fun u u' hu => ⟨hu.1, hu.2.1, hu.2.2.1⟩
    · exact hS.answers_each (Ne.symm htext) hback hW hw.flip
        fun u u' hu => ⟨hu.2.1, hu.1, hu.2.2.2⟩

/-- **Through text and back.**

A value of any primitive but a float casts to a text that casts back to the value.

In a scope without converters and operators a variant of an enumeration with distinct names
converts to its name, and the name to the variant.

Such primitives and enumerations also come back inside of firm wrappers, as they do in lists and
in lists with missing elements: the value converts to texts in its own structure, each of which
is exchanged with the leaf in its place, and these convert back to the value. -/
theorem text_roundTrip (σ : Schema) (S : Scope) (hS : S.Bare) :
    (∀ p v, (∀ f, p ≠ .float f) → v.HasType σ (.prim p) →
      ∃ s, p.cast .text v = .ok (some (.text s)) ∧
        Primitive.cast .text p (.text s) = .ok (some v)) ∧
    (∀ e i, ((σ.enum e).variants.map (·.name)).Nodup → i < (σ.enum e).variants.length →
      S.Exchanges σ (.enum e) (.enum e i) (.text ((σ.enum e).variant i).name)) ∧
    (∀ t (W : Wrapper) v, Spelled σ t → W.Firm → v.HasType σ (W.ty t) →
      ∃ w, W.Each (S.Exchanges σ t) t (.prim .text) v w ∧
        S.Answers σ (W.ty t) (W.ty (.prim .text)) v (.ok (some w)) ∧
        S.Answers σ (W.ty (.prim .text)) (W.ty t) w (.ok (some v))) := by
  refine ⟨?casts, ?variants, ?wrapped⟩
  case casts =>
    intro p v hp hv
    exact Primitive.cast_text_roundTrip hp hv
  case variants =>
    intro e i hnames hi
    refine ⟨hS.answers_name, ?_⟩
    rw [hS.answers_of_name_iff]
    exact Value.ofVariantName?_name hnames hi
  case wrapped =>
    intro t W v ht hW hv
    exact hS.exchanges_each ht hW hv

/-- A list of variants, one of them missing, goes through a list of names. -/
theorem text_roundTrip_scale :
    Scope.Bare {} ∧ Spelled scaleSchema (.enum "Scale") ∧ Wrapper.Firm (.seq (.option .bare)) ∧
      ∃ w, Scope.Answers {} scaleSchema (.seq (.option (.prim .text)))
        (.seq (.option (.enum "Scale"))) w
        (.ok (some (.seq (.option (.enum "Scale"))
          [.absent (.enum "Scale"), .present (.enum "Scale" 1)]))) := by
  have hscale : Spelled scaleSchema (.enum "Scale") := .enum lawful_scale.names
  have hfirm : Wrapper.Firm (.seq (.option .bare)) := by decide
  have hvalue : (Value.seq (.option (.enum "Scale"))
      [.absent (.enum "Scale"), .present (.enum "Scale" 1)]).HasType scaleSchema
        (Wrapper.ty (.seq (.option .bare)) (.enum "Scale")) := by
    refine .seq ?_
    intro v hv
    simp only [List.mem_cons, List.not_mem_nil, or_false] at hv
    rcases hv with rfl | rfl
    · exact .absent _
    · exact .present (.enum (by decide))
  obtain ⟨w, -, -, hback⟩ := (text_roundTrip scaleSchema {} bare_empty).2.2 _ _ _ hscale hfirm hvalue
  exact ⟨bare_empty, hscale, hfirm, w, hback⟩

end Scope

end RecordMap
