import RecordMap.Plan.Resolve

/-!
# What is configured for a member

The search for the plan of a member looks up what is configured for it, and works with that
(`Config.searchMember_eq`).  A change to what is configured for a member shows in that member
only (`Config.settings_onMember`).

Two changes to one member may come to the same: if both leave the same problems with what is
configured, and the same fates, then the mapping resolves alike after either
(`Config.resolve_onMember`).
-/

namespace RecordMap

namespace Config

variable {σ : Schema} {c : Config} {d : Defaults}

/-! ## §1. Settings of a member -/

/-- What is configured for a member, or else the settings of one that is not
mentioned. -/
def settings (c : Config) (name : String) : MemberConfig := (c.member? name).getD { name }

/-- The configuration ignores the member. -/
def ignores (c : Config) (member : String) : Bool :=
  ((c.member? member).map (·.ignored)).getD false

/-- The explicit sources of a member. -/
def origins (c : Config) (member : String) : List Origin :=
  ((c.member? member).map (·.origins)).getD []

/-- The explicit source of a member: the first one configured. -/
def origin? (c : Config) (member : String) : Option Origin :=
  (((c.member? member).map (·.origins)).getD []).head?

/-- The types declared by the conditions of a member. -/
def conditionParameters (c : Config) (member : String) : List Ty :=
  (((c.member? member).map (·.conditions)).getD []).filterMap (·.parameter?)

/-- **The member is heeded**: it is not ignored, and has at most one explicit source. -/
structure Heeds (c : Config) (member : String) : Prop where
  heeded : c.ignores member = false
  single : (c.origins member).length ≤ 1

theorem ignored_settings (c : Config) (name : String) :
    (c.settings name).ignored = c.ignores name := by
  unfold settings ignores
  cases c.member? name <;> rfl

theorem origins_settings (c : Config) (name : String) :
    (c.settings name).origins = c.origins name := by
  unfold settings origins
  cases c.member? name <;> rfl

theorem origin?_settings (c : Config) (name : String) :
    (c.settings name).origins.head? = c.origin? name := by
  rw [origins_settings]
  rfl

theorem conditions_settings (c : Config) (name : String) :
    (c.settings name).conditions.filterMap (·.parameter?) = c.conditionParameters name := by
  unfold settings conditionParameters
  cases c.member? name <;> rfl

theorem sentinel?_settings (c : Config) (d : Defaults) (name : String) (type : Ty) :
    c.sentinel? d (some (c.settings name)) type = c.sentinel? d (c.member? name) type := by
  unfold settings
  cases c.member? name <;> rfl

/-- Changing what is configured for a member counts for that member. -/
theorem find?_updateMember {f : MemberConfig → MemberConfig} (hf : ∀ m, (f m).name = m.name)
    (name other : String) (ms : List MemberConfig) :
    (updateMember name f ms).find? (·.name == other) =
      if name = other then some (f ((ms.find? (·.name == name)).getD { name }))
      else ms.find? (·.name == other) := by
  induction ms with
  | nil =>
    unfold updateMember
    rw [List.find?_cons, List.find?_nil, hf]
    by_cases h : name = other
    · simp [h]
    · simp [h, beq_false_of_ne h]
  | cons m ms ih =>
    unfold updateMember
    by_cases hm : m.name = name
    · rw [if_pos hm, List.find?_cons, List.find?_cons, List.find?_cons, hf, hm]
      by_cases h : name = other
      · simp [h]
      · simp [h, beq_false_of_ne h]
    · rw [if_neg hm, List.find?_cons, ih, List.find?_cons, List.find?_cons]
      have hne : (m.name == name) = false := by simpa using hm
      rw [hne]
      by_cases h : name = other
      · subst h
        simp [hne]
      · simp [h]

/-- What is configured after a change to one member. -/
theorem settings_onMember {f : MemberConfig → MemberConfig} (hf : ∀ m, (f m).name = m.name)
    (c : Config) (name other : String) :
    (c.onMember name f).settings other =
      if name = other then f (c.settings name) else c.settings other := by
  unfold settings member? onMember
  rw [find?_updateMember hf]
  by_cases h : name = other
  · simp [h]
  · simp [h]

theorem settings_addOrigin (c : Config) (name other : String) (o : Origin) :
    (c.addOrigin name o).settings other =
      if name = other then
        { c.settings name with origins := (c.settings name).origins ++ [o] }
      else c.settings other :=
  settings_onMember (f := fun m => { m with origins := m.origins ++ [o] }) (fun _ => rfl) c name
    other

/-! ## §2. Searching with the settings -/

/-- The production searched for a member that is neither ignored nor has several
sources. -/
def production (σ : Schema) (c : Config) (d : Defaults) (f : RecordMap.Field) (s : MemberConfig) :
    Search (Strategy × Production) :=
  match c.constant? d s.origins.head? f.type with
  | some v => do
      let v ← c.fit σ d f.name f.type v
      pure (.constant, .constant v)
  | none => do
      let (accessor, conversion) ← c.readSource σ d f.name f.type s.origins.head?
      c.readProduction σ d (some s) f.name f.type accessor conversion

theorem production_constant {f : RecordMap.Field} {s : MemberConfig} {v : Value}
    (h : c.constant? d s.origins.head? f.type = some v) :
    c.production σ d f s = (do
      let w ← c.fit σ d f.name f.type v
      pure (.constant, .constant w)) := by
  unfold production
  rw [h]

theorem production_read {f : RecordMap.Field} {s : MemberConfig}
    (h : c.constant? d s.origins.head? f.type = none) :
    c.production σ d f s = (do
      let (accessor, conversion) ← c.readSource σ d f.name f.type s.origins.head?
      c.readProduction σ d (some s) f.name f.type accessor conversion) := by
  unfold production
  rw [h]

/-- A search looks at the settings of its member. -/
theorem searchMember_eq (i : Nat) (f : RecordMap.Field) :
    c.searchMember σ d i f =
      let s := c.settings f.name
      if s.ignored then throw .ignored
      else if 1 < s.origins.length then throw .rejected
      else do
        Search.noteParameters (s.conditions.map (·.parameter?))
        let (strategy, production) ← c.production σ d f s
        return {
          member := f.name, type := f.type, declaration := i
          order := s.order.getD 0
          strategy, conditions := s.conditions, production } := by
  have hsettings : ∀ explicit : Option MemberConfig,
      (explicit.map (·.ignored)).getD false = (explicit.getD { name := f.name }).ignored ∧
      (explicit.map (·.origins)).getD [] = (explicit.getD { name := f.name }).origins ∧
      (explicit.map (·.conditions)).getD [] = (explicit.getD { name := f.name }).conditions ∧
      (explicit.bind (·.order)).getD 0 = (explicit.getD { name := f.name }).order.getD 0 ∧
      ∀ a k, c.readProduction σ d explicit f.name f.type a k =
        c.readProduction σ d (some (explicit.getD { name := f.name })) f.name f.type a k := by
    rintro (_ | m)
    · exact ⟨rfl, rfl, rfl, rfl, fun _ _ => rfl⟩
    · exact ⟨rfl, rfl, rfl, rfl, fun _ _ => rfl⟩
  obtain ⟨hignored, horigins, hconditions, horder, hproduction⟩ := hsettings (c.member? f.name)
  unfold searchMember settings production
  dsimp only
  rw [hignored, horigins, hconditions, horder]
  generalize (c.member? f.name).getD { name := f.name } = s at hproduction ⊢
  split
  · rfl
  · split
    · rfl
    · congr 1
      funext _
      cases c.constant? d s.origins.head? f.type with
      | some v => simp only [bind_assoc, pure_bind]
      | none => simp only [bind_assoc, hproduction]

/-! ## §3. Two changes to one member -/

section Changes

variable {f g : MemberConfig → MemberConfig} {name : String}

/-- Changes that leave the same problems with one member leave the same with all. -/
theorem filterMap_updateMember {α : Type} {problem? : MemberConfig → Option α}
    (h : ∀ m, problem? (f m) = problem? (g m)) (ms : List MemberConfig) :
    (updateMember name f ms).filterMap problem? = (updateMember name g ms).filterMap problem? := by
  induction ms with
  | nil => simp [updateMember, List.filterMap_cons, h]
  | cons m ms ih =>
    by_cases hm : m.name = name
    · simp [updateMember, hm, List.filterMap_cons, h]
    · simp [updateMember, hm, List.filterMap_cons, ih]

/-- **Changes with the same problems and the same fates** come to the same mapping. -/
theorem resolve_onMember (hproblem : ∀ m, c.problem? σ (f m) = c.problem? σ (g m))
    (hfate : ∀ i, ∀ t ∈ σ.fields c.destination,
      (c.onMember name f).fateOf σ d i t = (c.onMember name g).fateOf σ d i t)
    (session : Session) :
    (c.onMember name f).resolve σ d session = (c.onMember name g).resolve σ d session := by
  have hverdicts : (c.onMember name f).verdicts σ d = (c.onMember name g).verdicts σ d := by
    refine List.map_congr_left ?_
    intro ⟨t, i⟩ ht
    have hdeclared := List.mem_zipIdx_iff_getElem?.mp (List.mem_filter.mp ht).1
    exact hfate i t (List.mem_of_getElem? hdeclared)
  have hentered : ∀ verdicts, (c.onMember name f).entered σ verdicts session =
      (c.onMember name g).entered σ verdicts session := by
    intro verdicts
    have hproblems : (updateMember name f c.members).filterMap (c.problem? σ) =
        (updateMember name g c.members).filterMap (c.problem? σ) :=
      filterMap_updateMember hproblem c.members
    show c.mappingParameters.foldl _ (verdicts.foldl _
        (((updateMember name f c.members).filterMap (c.problem? σ)).foldl _ _)) = _
    rw [hproblems]
    rfl
  have hledger : ∀ verdicts, (c.onMember name f).ledger σ verdicts session =
      (c.onMember name g).ledger σ verdicts session := by
    intro verdicts
    unfold ledger
    rw [hentered]
    rfl
  unfold resolve
  dsimp only
  rw [hverdicts, hledger]
  rfl

end Changes

end Config

end RecordMap
