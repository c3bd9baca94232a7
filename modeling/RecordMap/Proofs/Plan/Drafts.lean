import RecordMap.Plan.Draft
import RecordMap.Proofs.Plan.Resolve

/-!
# Drafts and plans

Filling a draft step by step comes to the parts of the plan that the search puts
together at its end, with the same findings and the same other ends
(`Config.draftMember_eq`).  So the drafts of a mapping are the parts of its plans, in
the same order (`Config.drafts_eq`).
-/

namespace RecordMap

variable {σ : Schema} {c : Config} {d : Defaults}

namespace Draft

/-- The plan for a draft, given a production and its strategy. -/
def plan (x : Draft) (found : Strategy × Production) : MemberPlan where
  member := x.member
  type := x.type
  declaration := x.declaration
  order := x.order
  strategy := found.1
  conditions := x.conditions
  production := found.2

/-- Nothing has been entered into the draft. -/
structure Blank (x : Draft) : Prop where
  constant : x.constant = none
  accessor : x.accessor = none
  conversion : x.conversion = none
  sentinel : x.sentinel = none
  nullCheck : x.nullCheck = false
  nullCoalescing : x.nullCoalescing = false

/-- The flags ask for a sentinel just where one is needed. -/
theorem asks_eq (x : Draft) (a : Accessor) :
    (!x.type.isNullable && ((x.flag a).nullCheck || (x.flag a).nullCoalescing)) =
      Config.needsSentinel a x.type := by
  unfold flag Config.needsSentinel
  cases x.type.isNullable <;> cases a <;> simp [Accessor.mayBreak]

theorem fillConstant_eq {x : Draft} (hx : x.Blank) (v : Value) :
    x.fillConstant σ c d v =
      (fun w => (x.plan (.constant, .constant w)).parts) <$> c.fit σ d x.member x.type v := by
  have hparts : ∀ w, (x.plan (.constant, .constant w)).parts =
      { x with constant := some w, strategy := .constant } := by
    intro w
    obtain ⟨⟩ := x
    obtain ⟨rfl, rfl, rfl, rfl, rfl, rfl⟩ := hx
    rfl
  unfold fillConstant
  simp only [hparts, map_eq_pure_bind]

theorem fillSentinel_eq (explicit : Option MemberConfig) {x : Draft} (hx : x.Blank)
    (a : Accessor) :
    (x.flag a).fillSentinel σ c d explicit =
      (fun s => { x.flag a with sentinel := s }) <$>
        match (if Config.needsSentinel a x.type then c.sentinel? d explicit x.type else none) with
        | some v => some <$> c.fit σ d x.member x.type v
        | none => pure none := by
  have hnone : { x.flag a with sentinel := none } = x.flag a := by
    show { x.flag a with sentinel := none } = { x.flag a with sentinel := x.sentinel }
    rw [hx.sentinel]
  unfold fillSentinel
  rw [show (x.flag a).type = x.type from rfl, asks_eq]
  by_cases hneeds : Config.needsSentinel a x.type = true
  · simp only [if_pos hneeds]
    cases c.sentinel? d explicit x.type with
    | some v =>
      simp only [map_eq_pure_bind, bind_assoc, pure_bind]
      rfl
    | none =>
      dsimp only
      rw [map_pure, hnone]
  · simp only [if_neg hneeds]
    rw [map_pure, hnone]

theorem fillRead_eq (explicit : Option MemberConfig) {x : Draft} (hx : x.Blank) (a : Accessor)
    (k : Conversion) :
    x.fillRead σ c d explicit a k =
      (fun found => (x.plan found).parts) <$>
        c.readProduction σ d explicit x.member x.type a k := by
  have hparts : ∀ s : Option Value, (x.plan (Config.readStrategy k s, .read a k s)).parts =
      { x.flag a with
        strategy := Config.readStrategy k s, accessor := some a, conversion := some k
        sentinel := s } := by
    intro s
    obtain ⟨⟩ := x
    obtain ⟨rfl, rfl, rfl, rfl, rfl, rfl⟩ := hx
    cases a <;> rfl
  unfold fillRead Config.readProduction
  rw [fillSentinel_eq explicit hx a]
  dsimp only
  generalize (if Config.needsSentinel a x.type = true then c.sentinel? d explicit x.type
    else none) = first
  cases k.pairings.find? (· == c.pairing) with
  | some own =>
    simp only [map_eq_pure_bind, bind_assoc]
    rfl
  | none => cases first <;> simp only [map_eq_pure_bind, bind_assoc, pure_bind, hparts]

end Draft

namespace Config

/-- **Filling the plan of a member** comes to the parts of the plan found. -/
theorem draftMember_eq (declaration : Nat) (f : RecordMap.Field) :
    c.draftMember σ d declaration f = MemberPlan.parts <$> c.searchMember σ d declaration f := by
  unfold draftMember searchMember
  dsimp only
  split
  · rfl
  · split
    · rfl
    · rw [map_bind]
      congr 1
      funext _
      cases c.constant? d (((c.member? f.name).map (·.origins)).getD []).head? f.type with
      | some v =>
        dsimp only
        rw [Draft.fillConstant_eq ⟨rfl, rfl, rfl, rfl, rfl, rfl⟩]
        simp only [map_eq_pure_bind, bind_assoc, pure_bind]
        rfl
      | none =>
        dsimp only
        rw [map_bind]
        congr 1
        funext found
        rw [Draft.fillRead_eq _ ⟨rfl, rfl, rfl, rfl, rfl, rfl⟩]
        simp only [map_eq_pure_bind, bind_assoc, pure_bind]
        rfl

/-- The plan a fate comes with. -/
def plan? : Fate → Option MemberPlan
  | .planned p => some p
  | _ => none

theorem plans_eq (verdicts : List (Fate × Notes)) :
    plans verdicts = verdicts.filterMap fun v => plan? v.1 := rfl

/-- A member comes to a draft just if it is planned, and then to the parts of its
plan. -/
theorem draft?_eq (declaration : Nat) (f : RecordMap.Field) :
    c.draft? σ d declaration f = (plan? (c.fateOf σ d declaration f).1).map (·.parts) := by
  obtain ⟨fate, fs, j, hends, -⟩ := ends_searchMember (σ := σ) (c := c) (d := d) declaration f
  unfold draft? fateOf
  rw [draftMember_eq, Run.map_eq_bind, Run.run_bind, hends]
  cases fate <;> rfl

/-- **The drafts of a mapping** are the parts of its plans. -/
theorem drafts_eq :
    ((plans (c.verdicts σ d)).mergeSort MemberPlan.comesBefore).map (·.parts) = c.drafts σ d := by
  have hparts : (plans (c.verdicts σ d)).map (·.parts) =
      ((σ.fields c.destination).zipIdx.filter (·.1.writable)).filterMap fun e =>
        c.draft? σ d e.2 e.1 := by
    unfold verdicts
    rw [plans_eq, List.filterMap_map, List.map_filterMap]
    congr 1
    funext e
    exact (draft?_eq e.2 e.1).symm
  show _ = (((σ.fields c.destination).zipIdx.filter (·.1.writable)).filterMap fun e =>
    c.draft? σ d e.2 e.1).mergeSort Draft.comesBefore
  rw [← hparts]
  exact List.map_mergeSort fun p _ q _ => rfl

end Config

end RecordMap
