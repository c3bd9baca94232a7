import RecordMap.Proofs.Conversion.Joins
import RecordMap.Proofs.Typing.Callback

/-!
# Typed conversions

Run on a well-typed value of its source type, a conversion gives a well-typed
value of its target type or none, and never fails with a type mismatch.  The
converters in the tree have to be sound, and so have the nested mappers it
reaches; both are asked for leaf by leaf.

There is one lemma for each kind of leaf; `Conversion.Joins.typed_run` puts them
together by induction on the shape of the tree.
-/

namespace RecordMap

variable {ω : Type} {σ : Schema} {K : ω → Prop}

/-- **Nested mappers are sound for a pairing**: from a record of its source they
construct one of its destination. -/
def Nesting.Sound (σ : Schema) (K : ω → Prop) (nest : Nesting ω) (p : Pairing) : Prop :=
  ∀ v handedOn, v.HasType σ p.source → ParameterWellFormed σ handedOn →
    Run.Typed (fun t : Trail ω => K t.outside) (·.HasType σ p.destination) (nest p v handedOn)

namespace Conversion

variable {s : Type} {I : s → Prop} {v : Value}

/-! ## §1. Leaves -/

theorem typed_castOrFail {a : Primitive} (b : Primitive) (hv : v.HasType σ (.prim a)) :
    Run.Typed I (·.HasType σ (.prim b)) (castOrFail a b v) := by
  unfold castOrFail
  rcases Primitive.cast_of_hasType b hv with ⟨f, hf⟩ | ⟨w, hw, hwt⟩
  · rw [hf]
    exact .throw fun h => h
  · rw [hw]
    exact .pure hwt

theorem typed_variantOut {e : String} (b : Primitive) (hv : v.HasType σ (.enum e)) :
    Run.Typed I (·.HasType σ (.prim b)) (variantOut σ e b v) := by
  unfold variantOut
  obtain ⟨name, hname⟩ := hv.variantName?
  obtain ⟨n, hn⟩ := hv.underlying?
  rw [hname, hn, Run.require_some, Run.require_some]
  split
  · rename_i htext
    subst htext
    exact .pure (.text name)
  · rw [pure_bind]
    cases hw : Scalar.write b (.int n) with
    | ok out => exact .pure (Scalar.hasType_write hw)
    | error f => exact .throw fun h => h

theorem typed_variantIn {a : Primitive} (e : String) (hv : v.HasType σ (.prim a)) :
    Run.Typed I (·.HasType σ (.enum e)) (variantIn σ a e v) := by
  unfold variantIn
  split
  · rename_i htext
    subst htext
    cases hv with
    | text name => exact .require (fun w hw => Value.hasType_ofVariantName? hw) fun _ h => h
  · obtain ⟨scalar, hscalar⟩ := Primitive.read?_of_hasType hv
    rw [hscalar, Run.require_some, pure_bind]
    cases scalar.toInt (.int .i64) with
    | error f => exact .throw fun h => h
    | ok n =>
      refine .require ?_ fun _ h => h
      intro w hw
      split at hw
      · exact Value.hasType_ofUnderlying? hw
      · cases hw

theorem typed_variantAcross {a : String} (b : String) (hv : v.HasType σ (.enum a)) :
    Run.Typed I (·.HasType σ (.enum b)) (variantAcross σ a b v) := by
  unfold variantAcross
  obtain ⟨name, hname⟩ := hv.variantName?
  rw [hname, Run.require_some]
  exact .require (fun w hw => Value.hasType_ofVariantName? hw) fun _ h => h

/-! ## §2. Trees -/

variable {parameter handedOn : Option Value} {nest : Nesting ω}

/-- What a conversion may give: nothing, or a value of its target. -/
def Gives (σ : Schema) (t : Ty) (o : Option Value) : Prop := ∀ w ∈ o, w.HasType σ t

/-- A leaf always gives a value. -/
theorem gives_some {t : Ty} {x : Run s Value} (hx : Run.Typed I (·.HasType σ t) x) :
    Run.Typed I (Gives σ t) (some <$> x) := by
  refine hx.map ?_
  rintro w hw _ ⟨⟩
  exact hw

/-- **A conversion keeps to its types.** -/
theorem Joins.typed_run {c : Conversion} {a b : Ty} (hc : c.Joins (·.Sound σ) a b)
    (hnest : ∀ p ∈ c.pairings, Nesting.Sound σ K nest p)
    (hp : ParameterWellFormed σ parameter) (hh : ParameterWellFormed σ handedOn)
    (hv : v.HasType σ a) :
    Run.Typed (Call.WellFormed σ K) (Gives σ b) (c.run σ parameter handedOn nest v) := by
  -- The shape says at every node which type arrives there.
  induction hc generalizing v with
  | passThrough t =>
    rw [Conversion.run, hv.as?, Run.require_some]
    exact gives_some (.pure hv)
  | converter sound =>
    rw [Conversion.run]
    exact gives_some (Converter.typed_apply sound hp hv)
  | operator sound =>
    rw [Conversion.run]
    exact gives_some (Converter.typed_apply sound hp hv)
  | primitive a b =>
    rw [Conversion.run]
    exact gives_some (typed_castOrFail b hv)
  | fromEnum e b =>
    rw [Conversion.run]
    exact gives_some (typed_variantOut b hv)
  | toEnum a e =>
    rw [Conversion.run]
    exact gives_some (typed_variantIn e hv)
  | enumToEnum a b =>
    rw [Conversion.run]
    exact gives_some (typed_variantAcross b hv)
  | unwrap more ih =>
    rw [Conversion.run]
    cases hw : v.content? _ with
    | some inner => exact ih hnest (hv.content? hw)
    | none => exact .pure fun w hw => nomatch hw
  | @wrap a b next more ih =>
    rw [Conversion.run]
    refine (ih hnest hv).bind fun o ho => ?_
    cases o with
    | some out =>
      have hout : out.HasType σ b := ho out rfl
      show Run.Typed _ _ (some <$> Run.require (out.wrap? b) _)
      rw [hout.wrap?, Run.require_some]
      exact gives_some (.pure (.present hout))
    | none => exact .pure fun w hw => nomatch hw
  | @wrapSource a k sound takes =>
    rw [Conversion.run, hv.wrap?, Run.require_some]
    show Run.Typed _ _ (Conversion.run σ parameter handedOn nest (.converter k) _)
    rw [Conversion.run]
    exact gives_some (Converter.typed_apply sound hp (takes ▸ .present hv))
  | @elements a b next more ih =>
    obtain ⟨items, hitems, each⟩ := hv.items?
    rw [Conversion.run, hitems, Run.require_some]
    show Run.Typed _ _ (items.mapM _ >>= _)
    -- An element for which there is nothing becomes a zero, which is typed too.
    have heach : ∀ item ∈ items, Run.Typed (Call.WellFormed σ K) (·.HasType σ b)
        (do return (← next.run σ parameter handedOn nest item).getD (Value.zero σ b)) := by
      intro item hitem
      refine (ih hnest (each item hitem)).bind fun o ho => .pure ?_
      cases o with
      | some w => exact ho w rfl
      | none => exact Value.hasType_zero σ b
    refine (Run.Ensures.mapM heach).bind fun out hout => ?_
    rw [Value.HasType.collect? hout, Run.require_some]
    exact gives_some (.pure (.seq hout))
  | nested a b profile =>
    rw [Conversion.run]
    exact gives_some (Call.typed_onTrail (hnest _ (List.mem_singleton.mpr rfl) v handedOn hv hh))

end Conversion

end RecordMap
