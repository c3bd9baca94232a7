import RecordMap.Proofs.Mapper.Reordered
import RecordMap.Proofs.Plan.Planned
import RecordMap.Proofs.Plan.Settings

/-!
# Priorities and plans

The priority of a member decides its place in the order of assignment, and nothing
else of the plan.  Configurations that differ in priorities only (`Config.Reorders`)
have the same problems and the same verdicts on all members, but for the priorities in
them; so they resolve alike, to specifications with the same members in another order
(`Config.Reorders.resolve_ok`).
-/

namespace RecordMap

/-- What is configured for a member, without its priority. -/
def MemberConfig.unordered (m : MemberConfig) : MemberConfig := { m with order := none }

/-- What becomes of a member, without its priority. -/
def Fate.unordered : Fate → Fate
  | planned p => planned p.unordered
  | fate => fate

/-- The priority of a plan is not entered into the ledger. -/
theorem Ledger.enterMember_unordered (σ : Schema) (l : Ledger) (v : Fate × Notes) :
    l.enterMember σ (v.1.unordered, v.2) = l.enterMember σ v := by
  obtain ⟨fate, notes⟩ := v
  cases fate <;> rfl

namespace Config

variable {σ : Schema} {c c' : Config} {d : Defaults}

theorem plans_unordered (verdicts : List (Fate × Notes)) :
    (plans verdicts).map MemberPlan.unordered =
      plans (verdicts.map fun v => (v.1.unordered, v.2)) := by
  unfold plans
  rw [List.map_filterMap, List.filterMap_map]
  refine List.filterMap_congr ?_
  rintro ⟨fate, notes⟩ -
  cases fate <;> rfl

/-! ## §1. Other priorities -/

/-- The configuration with other priorities of some members. -/
def reordered (c : Config) (orders : List (String × Int)) : Config :=
  orders.foldl (fun c o => c.apply (.order o.1 o.2)) c

/-- **Configurations that differ in priorities only.** -/
structure Reorders (σ : Schema) (c c' : Config) : Prop where
  rest : c' = { c with members := c'.members }
  settings : ∀ name, (c'.settings name).unordered = (c.settings name).unordered
  problems : c'.members.filterMap (c.problem? σ) = c.members.filterMap (c.problem? σ)

namespace Reorders

theorem problem?_eq (h : c.Reorders σ c') : c'.problem? σ = c.problem? σ := by
  rw [h.rest]
  rfl

theorem refl (σ : Schema) (c : Config) : c.Reorders σ c := ⟨rfl, fun _ => rfl, rfl⟩

theorem trans {c'' : Config} (h : c.Reorders σ c') (h' : c'.Reorders σ c'') :
    c.Reorders σ c'' := by
  refine ⟨?_, fun name => (h'.settings name).trans (h.settings name), ?_⟩
  · rw [h'.rest, h.rest]
  · rw [← h.problem?_eq, h'.problems, h.problem?_eq]
    exact h.problems

end Reorders

/-- One more priority of a writable member. -/
theorem reorders_order {name : String} (hname : c.isWritable σ name = true) (n : Int) :
    c.Reorders σ (c.apply (.order name n)) := by
  refine ⟨rfl, fun other => ?_, ?_⟩
  · have hsettings := settings_onMember (f := fun m => { m with order := some n }) (fun _ => rfl) c
      name other
    show ((c.onMember name fun m => { m with order := some n }).settings other).unordered = _
    rw [hsettings]
    by_cases h : name = other
    · subst h
      rw [if_pos rfl]
      rfl
    · rw [if_neg h]
  · -- Only the name, the sources and whether it is ignored make a problem of a member.
    show (updateMember name (fun m => { m with order := some n }) c.members).filterMap _ = _
    induction c.members with
    | nil =>
      have hnone : c.problem? σ { name, order := some n } = none := by
        unfold problem?
        simp [hname]
      unfold updateMember
      rw [List.filterMap_cons_none hnone]
    | cons m ms ih =>
      unfold updateMember
      split
      · rfl
      · rw [List.filterMap_cons, List.filterMap_cons, ih]

/-- **Other priorities of writable members** change nothing but priorities. -/
theorem reorders_reordered {orders : List (String × Int)}
    (h : ∀ o ∈ orders, c.isWritable σ o.1 = true) : c.Reorders σ (c.reordered orders) := by
  induction orders generalizing c with
  | nil => exact .refl σ c
  | cons o rest ih =>
    obtain ⟨ho, hrest⟩ := List.forall_mem_cons.mp h
    exact (reorders_order ho o.2).trans (ih hrest)

/-! ## §2. Verdicts -/

namespace Reorders

variable (h : c.Reorders σ c')

include h

theorem settings_eq (name : String) :
    c'.settings name = { c.settings name with order := (c'.settings name).order } := by
  have hsame := h.settings name
  generalize c'.settings name = s' at hsame ⊢
  generalize c.settings name = s at hsame ⊢
  obtain ⟨⟩ := s
  obtain ⟨⟩ := s'
  cases hsame
  rfl

/-- What is produced for a member does not depend on priorities. -/
theorem production_eq (f : RecordMap.Field) (order : Option Int) :
    c'.production σ d f { c.settings f.name with order } =
      c.production σ d f (c.settings f.name) := by
  rw [h.rest]
  rfl

/-- **The search for a plan** ends with the same plan, but for its priority. -/
theorem searchMember_map (i : Nat) (f : RecordMap.Field) :
    c'.searchMember σ d i f =
      (fun m => { m with order := (c'.settings f.name).order.getD 0 }) <$>
        c.searchMember σ d i f := by
  rw [searchMember_eq, searchMember_eq]
  dsimp only
  rw [h.settings_eq f.name, h.production_eq]
  dsimp only
  split
  · rfl
  · split
    · rfl
    · simp only [map_bind, map_pure]

/-- **The fate of a member** is the same, but for the priority of its plan. -/
theorem fateOf_unordered (i : Nat) (f : RecordMap.Field) :
    ((c'.fateOf σ d i f).1.unordered, (c'.fateOf σ d i f).2) =
      ((c.fateOf σ d i f).1.unordered, (c.fateOf σ d i f).2) := by
  have hrun : ∀ (g : MemberPlan → MemberPlan) (x : Search MemberPlan),
      (g <$> x).run {} = ((x.run {}).1.map g, (x.run {}).2) := fun g x => by
    show StateT.run (ExceptT.run (g <$> x)) {} = _
    rw [ExceptT.run_map]
    rfl
  unfold fateOf
  rw [h.searchMember_map, hrun]
  rcases (c.searchMember σ d i f).run {} with ⟨fate | plan, notes⟩
  · rfl
  · rfl

/-! ## §3. Resolving -/

theorem verdicts_unordered :
    (c'.verdicts σ d).map (fun v => (v.1.unordered, v.2)) =
      (c.verdicts σ d).map fun v => (v.1.unordered, v.2) := by
  have htargets : c'.targets σ = c.targets σ := by
    rw [h.rest]
    rfl
  rw [verdicts_eq, verdicts_eq, htargets, List.map_map, List.map_map]
  exact List.map_congr_left fun t _ => h.fateOf_unordered t.2 t.1

/-- The ledger is the same. -/
theorem ledger_eq (session : Session) :
    c'.ledger σ (c'.verdicts σ d) session = c.ledger σ (c.verdicts σ d) session := by
  have henter : ∀ (verdicts : List (Fate × Notes)) (l : Ledger),
      verdicts.foldl (Ledger.enterMember σ) l =
        (verdicts.map fun v => (v.1.unordered, v.2)).foldl (Ledger.enterMember σ) l := by
    intro verdicts l
    rw [List.foldl_map]
    simp only [Ledger.enterMember_unordered]
  have hentered : c'.entered σ (c'.verdicts σ d) session = c.entered σ (c.verdicts σ d) session := by
    have hparameters : c'.mappingParameters = c.mappingParameters := by
      rw [h.rest]
      rfl
    unfold entered
    dsimp only
    rw [h.problem?_eq, h.problems, hparameters, henter, h.verdicts_unordered, ← henter]
  have hshapes : c'.shapesFor = c.shapesFor := by
    rw [h.rest]
    rfl
  unfold ledger
  rw [hentered, hshapes]

/-- **Resolving with other priorities** gives the same members in another order. -/
theorem resolve_ok {session : Session} {spec : Specification}
    (hspec : (c.resolve σ d session).result = .ok spec) :
    ∃ spec', (c'.resolve σ d session).result = .ok spec' ∧
      spec' = { spec with members := spec'.members } ∧
      (spec'.members.map MemberPlan.unordered).Perm (spec.members.map MemberPlan.unordered) := by
  obtain ⟨hnone, hsame⟩ := resolve_ok_iff.mp hspec
  have hledger := h.ledger_eq (d := d) session
  have hspec' : (c'.resolve σ d session).result = .ok _ :=
    resolve_ok_iff.mpr ⟨by rw [hledger, hnone], rfl⟩
  refine ⟨_, hspec', ?_, ?_⟩
  · rw [hledger, hsame]
    unfold specification
    rw [h.rest]
    rfl
  · have hplans : (plans (c'.verdicts σ d)).map MemberPlan.unordered =
        (plans (c.verdicts σ d)).map MemberPlan.unordered := by
      rw [plans_unordered, plans_unordered, h.verdicts_unordered]
    have hperm' := (members_perm hspec').map MemberPlan.unordered
    rw [hplans] at hperm'
    exact hperm'.trans ((members_perm hspec).map _).symm

end Reorders

end Config

end RecordMap
