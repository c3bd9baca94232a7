import RecordMap.Proofs.Conversion.Wrapper

/-!
# Converting leaf by leaf

The conversion between the same wrapper of two leaf types runs in step with the
traversal of the leaves by their own conversion (`Wrapper.run_around`).  So it fails
just when a leaf does, with the failure of the first that does, and it leaves the
call in the state in which the traversal leaves it.  What it gives has the converted
leaves in the structure of the collapsed source.

Only leaves are asked for anything, namely that their conversion gives a value.  A
conversion from a type without options does (`Conversion.Joins.typed_run_leaf`).
-/

namespace RecordMap

variable {ω : Type} {σ : Schema} {K : ω → Prop} {a b : Ty} {v : Value} {leaf : Conversion}
  {parameter handedOn : Option Value} {nest : Nesting ω}

/-! ## §1. Leaves -/

/-- A value of the type, and not none. -/
def Conversion.GivesValue (σ : Schema) (t : Ty) (o : Option Value) : Prop :=
  ∃ w, o = some w ∧ w.HasType σ t

/-- From a type without options a conversion gives a value. -/
theorem Conversion.Joins.typed_run_leaf (hc : leaf.Joins (·.Sound σ) a b)
    (ha : a.isContainer = false) (hnest : ∀ p ∈ leaf.pairings, Nesting.Sound σ K nest p)
    (hp : ParameterWellFormed σ parameter) (hh : ParameterWellFormed σ handedOn)
    (hv : v.HasType σ a) :
    Run.Typed (Call.WellFormed σ K) (Conversion.GivesValue σ b)
      (leaf.run σ parameter handedOn nest v) := by
  intro call hcall
  obtain ⟨hkeep, hresult⟩ := hc.typed_run hnest hp hh hv call hcall
  refine ⟨hkeep, ?_⟩
  cases hr : ((leaf.run σ parameter handedOn nest v).run call).1 with
  | error e =>
    rw [hr] at hresult
    exact hresult
  | ok o =>
    rw [hr] at hresult
    cases o with
    | some w => exact ⟨w, rfl, hresult w rfl⟩
    | none =>
      have hmeets := (hc.run_eq_none_iff call).mp hr
      have hnullable := hc.isNullable_of_meetsEmpty hmeets
      rw [Ty.isNullable_of_leaf ha] at hnullable
      cases hnullable

namespace Wrapper

/-! ## §2. Wrapped conversions -/

/-- **What comes of the leaves**: a value of the wrapped type, in the structure of
the collapsed source, with just the converted leaves.  None stands for an empty
option. -/
structure Rebuilds (σ : Schema) (t : Ty) (W : Wrapper) (v : Value) (o : Option Value)
    (outs : List (Option Value)) : Prop where
  typed : (o.getD (Value.zero σ (W.ty t))).HasType σ (W.ty t)
  lacking : o = none ↔ ∃ s, W.collapse v = .absent s
  outline : W.outline (o.getD (Value.zero σ (W.ty t))) = W.outline (W.collapse v)
  leaves : outs = (W.leaves (o.getD (Value.zero σ (W.ty t)))).map some

variable {W : Wrapper}

theorem Rebuilds.bare {w : Value} (ha : a.isContainer = false) (hv : v.HasType σ a)
    (hw : w.HasType σ b) : Wrapper.bare.Rebuilds σ b v (some w) [some w] := by
  refine ⟨hw, ⟨nofun, ?_⟩, rfl, rfl⟩
  rintro ⟨s, rfl⟩
  obtain ⟨W', hW⟩ := option_of_absent (W := .bare) ha hv
  cases hW

/-- Around an option that comes out empty, an option does too. -/
theorem Rebuilds.present_none {outs : List (Option Value)} (ha : a.isContainer = false)
    (hv : v.HasType σ (W.ty a)) (h : W.Rebuilds σ b v none outs) :
    (option W).Rebuilds σ b (.present v) none outs := by
  obtain ⟨s, hs⟩ := h.lacking.mp rfl
  have hcollapse := collapse_present_of_absent hs
  have houts : outs = [] := by
    have htyped := hasType_collapse hv
    rw [hs] at htyped
    obtain ⟨W', rfl⟩ := option_of_absent ha htyped
    exact h.leaves
  constructor
  case typed => exact .absent _
  case lacking => exact ⟨fun _ => ⟨_, hcollapse⟩, fun _ => rfl⟩
  case outline =>
    rw [hcollapse]
    rfl
  case leaves =>
    rw [houts]
    rfl

theorem Rebuilds.present_some {w : Value} {outs : List (Option Value)}
    (h : W.Rebuilds σ b v (some w) outs) :
    (option W).Rebuilds σ b (.present v) (some (.present w)) outs := by
  have hcollapse : (option W).collapse (.present v) = .present (W.collapse v) :=
    collapse_present fun s hs => nomatch h.lacking.mpr ⟨s, hs⟩
  have houtline : W.outline w = W.outline (W.collapse v) := h.outline
  constructor
  case typed => exact .present h.typed
  case lacking =>
    rw [hcollapse]
    exact ⟨nofun, nofun⟩
  case outline =>
    rw [hcollapse]
    show Outline.some (W.outline w) = .some _
    rw [houtline]
  case leaves => exact h.leaves

/-- What comes of the elements of a sequence, each with its zero put in. -/
structure RebuildsAll (σ : Schema) (t : Ty) (W : Wrapper) (vs ws : List Value)
    (outs : List (Option Value)) : Prop where
  typed : ∀ w ∈ ws, w.HasType σ (W.ty t)
  outline : ws.map W.outline = vs.map fun v => W.outline (W.collapse v)
  leaves : outs = (ws.flatMap W.leaves).map some

theorem RebuildsAll.seq {vs ws : List Value} {outs : List (Option Value)}
    (h : W.RebuildsAll σ b vs ws outs) :
    (Wrapper.seq W).Rebuilds σ b (.seq (W.ty a) vs) (some (.seq (W.ty b) ws)) outs := by
  constructor
  case typed => exact .seq h.typed
  case lacking => exact ⟨nofun, nofun⟩
  case outline =>
    show Outline.items (ws.map W.outline) = .items ((vs.map W.collapse).map W.outline)
    rw [h.outline, List.map_map]
    rfl
  case leaves => exact h.leaves

theorem RebuildsAll.nil : W.RebuildsAll σ b [] [] [] where
  typed _ hw := nomatch hw
  outline := rfl
  leaves := rfl

theorem RebuildsAll.cons {w : Value} {vs ws : List Value} {o : Option Value}
    {outs outs' : List (Option Value)} (h : W.Rebuilds σ b v o outs)
    (hw : o.getD (Value.zero σ (W.ty b)) = w) (hrest : W.RebuildsAll σ b vs ws outs') :
    W.RebuildsAll σ b (v :: vs) (w :: ws) (outs ++ outs') := by
  subst hw
  constructor
  case typed => exact List.forall_mem_cons.mpr ⟨h.typed, hrest.typed⟩
  case outline => rw [List.map_cons, List.map_cons, h.outline, hrest.outline]
  case leaves => rw [List.flatMap_cons, List.map_append, ← h.leaves, ← hrest.leaves]

/-- **Element by element** is leaf by leaf, if it is so for each element. -/
theorem run_items {vs : List Value} {step : Value → Run (Call ω) (Option Value)}
    {each : Value → Run (Call ω) (Option Value)}
    (h : ∀ v ∈ vs, Run.InStep (Call.WellFormed σ K) (W.Rebuilds σ b v) (step v)
      ((W.leaves v).mapM each)) :
    Run.InStep (Call.WellFormed σ K) (W.RebuildsAll σ b vs)
      (vs.mapM fun v => do return (← step v).getD (Value.zero σ (W.ty b)))
      ((vs.flatMap W.leaves).mapM each) := by
  induction vs with
  | nil =>
    rw [List.mapM_nil, List.flatMap_nil, List.mapM_nil]
    exact .pure .nil
  | cons v vs ih =>
    obtain ⟨hv, hvs⟩ := List.forall_mem_cons.mp h
    rw [List.mapM_cons, List.flatMap_cons, List.mapM_append, bind_assoc]
    -- The leaves of the first element come before all others.
    refine hv.bind fun o outs hone => ?_
    rw [pure_bind]
    refine (ih hvs).bind fun ws outs' hrest => ?_
    exact .pure (.cons hone rfl hrest)

/-- **A wrapped conversion runs leaf by leaf.** -/
theorem run_around (ha : a.isContainer = false)
    (hleaf : ∀ u : Value, u.HasType σ a → Run.Typed (Call.WellFormed σ K)
      (Conversion.GivesValue σ b) (leaf.run σ parameter handedOn nest u))
    (hv : v.HasType σ (W.ty a)) :
    Run.InStep (Call.WellFormed σ K) (W.Rebuilds σ b v)
      ((W.around a b leaf).run σ parameter handedOn nest v)
      ((W.leaves v).mapM (leaf.run σ parameter handedOn nest)) := by
  -- By induction on the wrapper, each layer over what comes of the one inside it.
  induction W generalizing v with
  | bare =>
    show Run.InStep _ _ (leaf.run σ parameter handedOn nest v) ([v].mapM _)
    have hlone : [v].mapM (leaf.run σ parameter handedOn nest) =
        leaf.run σ parameter handedOn nest v >>= fun o => pure [o] := by
      simp [List.mapM_cons]
    rw [hlone, ← bind_pure (leaf.run σ parameter handedOn nest v), bind_assoc]
    refine (Run.InStep.refl (hleaf v hv)).bind fun o o' ho => ?_
    obtain ⟨rfl, w, rfl, hw⟩ := ho
    rw [pure_bind]
    exact .pure (.bare ha hv hw)
  | option W ih =>
    show Run.InStep _ _ (Conversion.run σ parameter handedOn nest (.unwrap _ (.wrap _ _)) v) _
    rcases hv.option_cases with rfl | ⟨w, rfl, hw⟩
    · rw [Conversion.run]
      show Run.InStep _ _ (pure none) (List.mapM _ [])
      rw [List.mapM_nil]
      exact .pure ⟨.absent _, ⟨fun _ => ⟨_, rfl⟩, fun _ => rfl⟩, rfl, rfl⟩
    · rw [Conversion.run, Value.content?_present hw.type_eq]
      show Run.InStep _ _ (Conversion.run σ parameter handedOn nest (.wrap _ _) w)
        ((W.leaves w).mapM _)
      rw [Conversion.run, ← bind_pure ((W.leaves w).mapM _)]
      refine (ih hw).bind fun o outs h => ?_
      cases o with
      | none => exact .pure (h.present_none ha hw)
      | some out =>
        have hout : out.wrap? (W.ty b) = some (.present out) := h.typed.wrap?
        dsimp only
        rw [hout]
        exact .pure h.present_some
  | seq W ih =>
    obtain ⟨items, rfl, each⟩ := hv.seq_inv
    show Run.InStep _ _ (Conversion.run σ parameter handedOn nest (.elements _ _ _) _)
      ((items.flatMap W.leaves).mapM _)
    have hitems : (Value.seq (W.ty a) items).items? (W.ty a) = some items := if_pos rfl
    rw [Conversion.run, hitems, Run.require_some, pure_bind, ← bind_pure ((items.flatMap _).mapM _)]
    refine (run_items fun v hv => ih (each v hv)).bind fun ws outs h => ?_
    rw [Value.HasType.collect? h.typed]
    exact .pure h.seq

/-! ## §3. Copies -/

/-- The traversal of the leaves by a copy gives the leaves. -/
theorem run_copies {us : List Value} (hus : ∀ u ∈ us, u.HasType σ a) :
    us.mapM ((Conversion.passThrough a).run σ parameter handedOn nest) = pure (us.map some) := by
  induction us with
  | nil => rfl
  | cons u us ih =>
    obtain ⟨hu, hrest⟩ := List.forall_mem_cons.mp hus
    rw [List.mapM_cons, ih hrest, Conversion.run, hu.as?]
    rfl

/-- What a wrapped conversion carries over of the source: all of it if it only
copies, and else the collapsed source. -/
def carried (leaf : Conversion) (W : Wrapper) (v : Value) : Value :=
  if leaf.isPassThrough then v else W.collapse v

/-- **A converted value**: it has the wrapped type, the structure carried over, and
just the converted leaves. -/
structure Carries (σ : Schema) (t : Ty) (W : Wrapper) (leaf : Conversion) (v w : Value)
    (outs : List (Option Value)) : Prop where
  typed : w.HasType σ (W.ty t)
  outline : W.outline w = W.outline (W.carried leaf v)
  leaves : outs = (W.leaves w).map some

/-- **The conversion between wrapped types** runs leaf by leaf, and gives none only
in place of an empty option. -/
theorem run_lift (hjoins : leaf.Joins (·.Sound σ) a b) (ha : a.isContainer = false)
    (hb : b.isContainer = false) (hnest : ∀ p ∈ leaf.pairings, Nesting.Sound σ K nest p)
    (hp : ParameterWellFormed σ parameter) (hh : ParameterWellFormed σ handedOn)
    (hv : v.HasType σ (W.ty a)) :
    Run.InStep (Call.WellFormed σ K)
      (fun o outs => W.Carries σ b leaf v (o.getD (Value.zero σ (W.ty b))) outs ∧
        (o = none → (W.ty b).isNullable = true))
      ((W.lift a b leaf).run σ parameter handedOn nest v)
      ((W.leaves v).mapM (leaf.run σ parameter handedOn nest)) := by
  unfold lift
  by_cases hcopy : leaf.isPassThrough = true
  · obtain ⟨rfl, rfl⟩ := Scope.copy_of_isPassThrough hjoins ha hb hcopy
    rw [if_pos hcopy, Conversion.run, hv.as?, run_copies (hasType_leaves hv)]
    refine .pure ⟨⟨hv, rfl, rfl⟩, fun hnone => ?_⟩
    cases hnone
  · rw [if_neg hcopy]
    have haround := run_around (W := W) ha
      (fun u hu => hjoins.typed_run_leaf ha hnest hp hh hu) hv
    refine haround.mono fun o outs h => ⟨⟨h.typed, ?_, h.leaves⟩, ?_⟩
    · rw [carried, if_neg hcopy]
      exact h.outline
    · intro hnone
      obtain ⟨s, hs⟩ := h.lacking.mp hnone
      have htyped := hasType_collapse hv
      rw [hs] at htyped
      obtain ⟨W', rfl⟩ := option_of_absent ha htyped
      rfl

end Wrapper

end RecordMap
