import RecordMap.Proofs.Plan.Ledger

/-!
# Every writable member is accounted for

The verdict on a member is that of its treatment, or the member is rejected and a
problem blames it (`Config.treated_or_blamed`).  A mapping that resolves has no
problem, so all its members are treated as the configuration says.  What this
means for the plans and for the counts is shown for one member
(`Config.settles_fateOf`) and then for all of them.

`Config.members_accounted` puts this together with the ledger.
-/

namespace RecordMap

namespace Config

variable {σ : Schema} {c : Config} {d : Defaults}

/-! ## §1. The fates of all members -/

/-- The writable members of the destination. -/
def writable (σ : Schema) (c : Config) : List RecordMap.Field :=
  (σ.fields c.destination).filter (·.writable)

theorem map_fst_targets : (c.targets σ).map Prod.fst = c.writable σ := by
  show ((σ.fields c.destination).zipIdx.filter ((·.writable) ∘ Prod.fst)).map Prod.fst = _
  rw [← List.filter_map, List.zipIdx_map_fst]
  rfl

/-- Several sources of a member are a problem of the configuration. -/
theorem problem?_of_several {f : RecordMap.Field} (hf : f ∈ σ.fields c.destination)
    (hwritable : f.writable = true) (heeded : ¬ c.ignores f.name = true)
    (several : 1 < (c.origins f.name).length) :
    ∃ m ∈ c.members, ∃ x, c.problem? σ m = some x ∧ x.member? = some f.name := by
  unfold ignores at heeded
  unfold origins at several
  cases hm : c.member? f.name with
  | none =>
    rw [hm] at several
    exact absurd several (by simp)
  | some m =>
    rw [hm] at heeded several
    have hname : m.name = f.name := by simpa using List.find?_some hm
    have hknown : c.isWritable σ m.name = true := by
      rw [isWritable, List.any_eq_true]
      exact ⟨f, hf, by simp [hname, hwritable]⟩
    refine ⟨m, List.mem_of_find?_eq_some hm, .duplicateMapping m.name m.origins.length, ?_,
      congrArg some hname⟩
    unfold problem?
    rw [hknown, if_neg (by simp), if_pos ⟨by simpa using heeded, several⟩]

/-- **A member has the fate of its treatment, or it is blamed.** -/
theorem treated_or_blamed (hnames : ((σ.fields c.source).map (·.name)).Nodup)
    {f : RecordMap.Field} {i : Nat} (h : (f, i) ∈ c.targets σ) (session : Session) :
    (c.fateOf σ d i f).1.treatment? = some (c.treatment σ d f) ∨
      ∃ x ∈ (c.ledger σ (c.verdicts σ d) session).problems, x.member? = some f.name := by
  have hmem : c.fateOf σ d i f ∈ c.verdicts σ d := List.mem_map.mpr ⟨(f, i), h, rfl⟩
  generalize hv : c.fateOf σ d i f = v at hmem ⊢
  have hdecides := decides_fateOf (d := d) hnames i f
  rw [hv] at hdecides
  obtain ⟨fate, notes⟩ := v
  generalize hfs : notes.findings = fs at hdecides
  cases hdecides with
  | ignored treated => exact .inl (congrArg some treated.symm)
  | excluded treated _ => exact .inl (congrArg some treated.symm)
  | planned treated _ _ => exact .inl (congrArg some treated.symm)
  | rejected blamed =>
    obtain ⟨x, hx, hnames⟩ := blamed
    exact .inr ⟨x, mem_problems_of_finding hmem (by rw [hfs]; exact hx), hnames⟩
  | several heeded several =>
    -- The search says nothing of a member with several sources: the check of the
    -- configuration does.
    obtain ⟨hi, hwritable⟩ := mem_targets.mp h
    obtain ⟨m, hm, x, hx, hblamed⟩ :=
      problem?_of_several (List.mem_of_getElem? hi) hwritable heeded several
    exact .inr ⟨x, mem_problems_of_problem? hm hx _, hblamed⟩

/-! ## §2. Members and their verdicts -/

/-- The verdicts on some members, none of them rejected, are as their treatments say. -/
structure Settles (σ : Schema) (c : Config) (d : Defaults) (fs : List RecordMap.Field)
    (verdicts : List (Fate × Notes)) : Prop where
  names : (plans verdicts).map (·.member) =
    (fs.filter fun f => (c.treatment σ d f).isPlanned).map (·.name)
  total : (plans verdicts).length + tally (some .excluded) verdicts +
    tally (some .ignored) verdicts = fs.length
  ignored : tally (some .ignored) verdicts = fs.countP fun f => c.treatment σ d f = .ignored
  excluded : tally (some .excluded) verdicts = fs.countP fun f => c.treatment σ d f = .excluded
  linked : linkedConverters verdicts =
    ((plans verdicts).map fun p => p.production.converters.length).sum

theorem Settles.append {fs gs : List RecordMap.Field} {vs ws : List (Fate × Notes)}
    (h : c.Settles σ d fs vs) (h' : c.Settles σ d gs ws) :
    c.Settles σ d (fs ++ gs) (vs ++ ws) where
  names := by
    rw [plans_append, List.map_append, h.names, h'.names, List.filter_append, List.map_append]
  total := by
    have htotal := h.total
    have htotal' := h'.total
    rw [plans_append, tally_append, tally_append, List.length_append, List.length_append]
    omega
  ignored := by rw [tally_append, h.ignored, h'.ignored, List.countP_append]
  excluded := by rw [tally_append, h.excluded, h'.excluded, List.countP_append]
  linked := by
    rw [linkedConverters_append, h.linked, h'.linked, plans_append, List.map_append,
      List.sum_append]

/-- **One member** with the fate of its treatment. -/
theorem settles_fateOf (hnames : ((σ.fields c.source).map (·.name)).Nodup) {f : RecordMap.Field}
    {i : Nat} (h : (c.fateOf σ d i f).1.treatment? = some (c.treatment σ d f)) :
    c.Settles σ d [f] [c.fateOf σ d i f] := by
  have hdecides := decides_fateOf (d := d) hnames i f
  have hplans := @plans_of_fateOf σ c d i f
  generalize c.fateOf σ d i f = v at h hdecides hplans ⊢
  obtain ⟨fate, notes⟩ := v
  have hlinked : linkedConverters [(fate, notes)] = Finding.linked notes.findings := Nat.add_zero _
  generalize notes.findings = fs at hdecides hlinked
  cases hdecides with
  | ignored treated =>
    refine ⟨?_, rfl, ?_, ?_, hlinked⟩
    · simp [plans, treated, Treatment.isPlanned]
    · simp [tally, Fate.treatment?, treated]
    · simp [tally, Fate.treatment?, treated]
  | excluded treated hzero =>
    refine ⟨?_, rfl, ?_, ?_, hlinked.trans hzero⟩
    · simp [plans, treated, Treatment.isPlanned]
    · simp [tally, Fate.treatment?, treated]
    · simp [tally, Fate.treatment?, treated]
  | @planned p fs treated _ hcount =>
    have hplanned := p.production.isPlanned_treatment
    rw [← treated] at hplanned
    -- Planned members are neither ignored nor excluded.
    have hnever : ∀ t : Treatment, t.isPlanned = false →
        tally (some t) [(.planned p, notes)] = 0 ∧ c.treatment σ d f ≠ t := by
      intro t ht
      have hne : c.treatment σ d f ≠ t := by
        rintro rfl
        rw [hplanned] at ht
        cases ht
      exact ⟨by simp [tally, Fate.treatment?, ← treated, hne], hne⟩
    refine ⟨?_, ?_, ?_, ?_, hlinked.trans hcount⟩
    · simp [plans, hplanned, (hplans rfl).member]
    · rw [(hnever .excluded rfl).1, (hnever .ignored rfl).1]
      rfl
    · simp [hnever .ignored rfl]
    · simp [hnever .excluded rfl]
  | rejected _ => cases h
  | several _ _ => cases h

/-- **All members** with the fates of their treatments. -/
theorem settles_verdicts (hnames : ((σ.fields c.source).map (·.name)).Nodup)
    {targets : List (RecordMap.Field × Nat)}
    (h : ∀ t ∈ targets, (c.fateOf σ d t.2 t.1).1.treatment? = some (c.treatment σ d t.1)) :
    c.Settles σ d (targets.map Prod.fst) (targets.map fun t => c.fateOf σ d t.2 t.1) := by
  induction targets with
  | nil => exact ⟨rfl, rfl, rfl, rfl, rfl⟩
  | cons t rest ih =>
    obtain ⟨ht, hrest⟩ := List.forall_mem_cons.mp h
    exact (settles_fateOf hnames ht).append (ih hrest)

/-! ## §3. Accounts of a mapping -/

/-- **The accounts of a resolved mapping**, its plans and the counts of its session:
every writable member has one fate, that of its treatment. -/
structure Accounted (σ : Schema) (c : Config) (d : Defaults) (spec : Specification)
    (stats : BuildStats) : Prop where
  /-- A constant or a member that is read is planned exactly once, any other never. -/
  planned : ∀ f ∈ c.writable σ,
    spec.memberNames.count f.name = if (c.treatment σ d f).isPlanned then 1 else 0
  /-- A plan is one of a writable member, and as its treatment says. -/
  treated : ∀ plan ∈ spec.members, ∃ f ∈ c.writable σ, c.Plans σ d plan.declaration f plan ∧
    plan.production.treatment = c.treatment σ d f ∧
    (plan.strategy = .constant ↔ c.treatment σ d f = .constant)
  ignored : stats.membersIgnored =
    (c.writable σ).countP fun f => c.treatment σ d f = .ignored
  excluded : stats.membersExcluded =
    (c.writable σ).countP fun f => c.treatment σ d f = .excluded
  resolved : stats.membersResolved = spec.members.length
  strategies : ∀ s, stats.count s = spec.members.countP fun p => p.strategy = s
  /-- The five strategies make up all planned members. -/
  split : stats.membersResolved =
    stats.direct + stats.viaConverter + stats.constants + stats.nested + stats.sentinels
  /-- The three ways to settle a member make up all writable members. -/
  total : stats.membersResolved + stats.membersExcluded + stats.membersIgnored =
    (c.writable σ).length
  linked : stats.convertersLinked =
    (spec.members.map fun p => p.production.converters.length).sum

/-- Every plan has one of the five strategies. -/
theorem length_eq_strategies (ps : List MemberPlan) : ps.length =
    (ps.countP fun p => p.strategy = .direct) + (ps.countP fun p => p.strategy = .viaConverter) +
      (ps.countP fun p => p.strategy = .constant) + (ps.countP fun p => p.strategy = .nested) +
      (ps.countP fun p => p.strategy = .guardedBySentinel) := by
  induction ps with
  | nil => rfl
  | cons p ps ih =>
    simp only [List.countP_cons, List.length_cons]
    cases p.strategy <;> simp <;> omega

/-- A planned target has its plan as the treatment says. -/
theorem treated_of_fateOf (hnames : ((σ.fields c.source).map (·.name)).Nodup)
    {f : RecordMap.Field} {i : Nat} {plan : MemberPlan}
    (h : (c.fateOf σ d i f).1 = .planned plan) :
    c.Plans σ d plan.declaration f plan ∧ plan.production.treatment = c.treatment σ d f ∧
      (plan.strategy = .constant ↔ c.treatment σ d f = .constant) := by
  have hplans := plans_of_fateOf h
  have hdecides := decides_fateOf (d := d) hnames i f
  rw [h] at hdecides
  refine ⟨by rw [hplans.declaration]; exact hplans, ?_⟩
  cases hdecides with
  | planned treated strategy _ =>
    refine ⟨treated.symm, ?_⟩
    rw [strategy, treated]
    exact strategy_eq_constant_iff plan.production

/-- A name that occurs once at most occurs in a part of a list as often as it should. -/
theorem count_names {fs : List RecordMap.Field} (hnames : (fs.map (·.name)).Nodup)
    (p : RecordMap.Field → Bool) {f : RecordMap.Field} (hf : f ∈ fs) :
    ((fs.filter p).map (·.name)).count f.name = if p f then 1 else 0 := by
  have hsub : ((fs.filter p).map (·.name)).Nodup := hnames.sublist (List.filter_sublist.map _)
  split
  · rename_i hp
    exact List.count_eq_one_of_mem hsub
      (List.mem_map_of_mem (List.mem_filter.mpr ⟨hf, hp⟩))
  · rename_i hp
    refine List.count_eq_zero_of_not_mem fun hmem => ?_
    obtain ⟨g, hg, hname⟩ := List.mem_map.mp hmem
    obtain ⟨hgfs, hpg⟩ := List.mem_filter.mp hg
    rw [List.inj_on_of_nodup_map hnames hgfs hf hname] at hpg
    exact hp hpg

/-- The accounts of a mapping that resolves. -/
theorem accounted_of_ok {name : String} {spec : Specification}
    (hsource : ((σ.fields c.source).map (·.name)).Nodup)
    (hdestination : ((σ.fields c.destination).map (·.name)).Nodup)
    (h : (c.resolve σ d { pair := name }).result = .ok spec) :
    c.Accounted σ d spec (c.resolve σ d { pair := name }).session.stats := by
  rw [session_of_ok h]
  obtain ⟨hnone, hspec⟩ := resolve_ok_iff.mp h
  have htally : Tallied {} (c.verdicts σ d)
      (c.ledger σ (c.verdicts σ d) { pair := name }).session.stats :=
    tallied_ledger _ { pair := name }
  generalize (c.ledger σ (c.verdicts σ d) { pair := name }).session.stats = stats at htally
  have htreated : ∀ t ∈ c.targets σ,
      (c.fateOf σ d t.2 t.1).1.treatment? = some (c.treatment σ d t.1) := by
    intro t ht
    rcases treated_or_blamed hsource ht { pair := name } with htreated | ⟨x, hx, -⟩
    · exact htreated
    · rw [hnone] at hx
      cases hx
  have hsettles : c.Settles σ d (c.writable σ) (c.verdicts σ d) := by
    rw [← map_fst_targets]
    exact settles_verdicts hsource htreated
  -- Sorting by priority only permutes the plans.
  have hperm : spec.members.Perm (plans (c.verdicts σ d)) := by
    rw [hspec]
    exact List.mergeSort_perm _ _
  have hresolved : stats.membersResolved = spec.members.length := by
    rw [htally.resolved, hperm.length_eq, Nat.zero_add]
  have hstrategies : ∀ s, stats.count s = spec.members.countP fun p => p.strategy = s := by
    intro s
    rw [htally.strategies, hperm.countP_eq]
    cases s <;> exact Nat.zero_add _
  constructor
  case planned =>
    intro f hf
    have hnames : ((c.writable σ).map (·.name)).Nodup :=
      hdestination.sublist (List.filter_sublist.map _)
    unfold Specification.memberNames
    rw [(hperm.map _).count_eq, hsettles.names, count_names hnames _ hf]
  case treated =>
    intro plan hplan
    obtain ⟨v, hv, hfate⟩ := fate_of_mem_plans (hperm.mem_iff.mp hplan)
    obtain ⟨⟨f, i⟩, ht, rfl⟩ := List.mem_map.mp hv
    have hf : f ∈ c.writable σ := by
      rw [← map_fst_targets]
      exact List.mem_map_of_mem ht
    exact ⟨f, hf, treated_of_fateOf hsource hfate⟩
  case ignored => rw [htally.ignored, hsettles.ignored, Nat.zero_add]
  case excluded => rw [htally.excluded, hsettles.excluded, Nat.zero_add]
  case resolved => exact hresolved
  case strategies => exact hstrategies
  case split =>
    rw [hresolved, length_eq_strategies, ← hstrategies, ← hstrategies, ← hstrategies,
      ← hstrategies, ← hstrategies]
    rfl
  case total =>
    rw [htally.resolved, htally.excluded, htally.ignored, ← hsettles.total]
    exact congr_arg₂ _ (congr_arg₂ _ (Nat.zero_add _) (Nat.zero_add _)) (Nat.zero_add _)
  case linked =>
    rw [htally.linked, hsettles.linked, (hperm.map _).sum_eq, Nat.zero_add]

/-- **Every writable member is accounted for.**  With distinct member names, on a
fresh session: a mapping that resolves has its members treated as the configuration
says, with counts to match; and a member that does not get the fate of its treatment
fails the mapping with a problem that names it. -/
theorem members_accounted (σ : Schema) (c : Config) (d : Defaults) (name : String)
    (hsource : ((σ.fields c.source).map (·.name)).Nodup)
    (hdestination : ((σ.fields c.destination).map (·.name)).Nodup) :
    (∀ spec, (c.resolve σ d { pair := name }).result = .ok spec →
      c.Accounted σ d spec (c.resolve σ d { pair := name }).session.stats) ∧
    (∀ i f, (σ.fields c.destination)[i]? = some f → f.writable = true →
      (c.fateOf σ d i f).1.treatment? = some (c.treatment σ d f) ∨
      ∃ e, (c.resolve σ d { pair := name }).result = .error e ∧
        ∃ x ∈ e.diagnostics, x.member? = some f.name) := by
  refine ⟨fun spec h => accounted_of_ok hsource hdestination h, ?_⟩
  intro i f hi hwritable
  rcases treated_or_blamed hsource (mem_targets.mpr ⟨hi, hwritable⟩) { pair := name } with
    htreated | ⟨x, hx, hblamed⟩
  · exact .inl htreated
  · right
    cases hresult : (c.resolve σ d { pair := name }).result with
    | ok spec =>
      rw [(resolve_ok_iff.mp hresult).1] at hx
      cases hx
    | error e =>
      refine ⟨e, rfl, x, ?_, hblamed⟩
      rw [resolve_error hresult]
      exact hx

/-- Tickets, and the lines they make on a bill. -/
def ticketSchema : Schema where
  naming := ⟨"Text", "Option", "List"⟩
  record
    | "Ticket" => { fields := [{ name := "title", type := .prim .text }] }
    | "Line" => { fields := [
        { name := "id", type := .prim .text }, { name := "kind", type := .prim .text },
        { name := "title", type := .prim .text }, { name := "rest", type := .prim .text },
        { name := "total", type := .prim .text, writable := false }] }
    | _ => {}
  enum _ := { first := { name := "", underlying := 0 } }
  rank _ := 0
  contains_lt := by
    rintro r r' ⟨f, hf, ht⟩
    split at hf <;> simp at hf
    · simp [hf] at ht
    · rcases hf with rfl | rfl | rfl | rfl | rfl <;> cases ht

/-- Lines of tickets: one member is ignored, one a constant, one read and one left
out. -/
def ticketLine : Config where
  source := "Ticket"
  destination := "Line"
  members := [{ name := "id", ignored := true },
    { name := "kind", origins := [.constant (.text "ticket")] }]

theorem verdicts_ticketLine : ticketLine.verdicts ticketSchema {} =
    [(.ignored, {}),
      (.planned { member := "kind", type := .prim .text, declaration := 1, strategy := .constant
                  production := .constant (.text "ticket") }, {}),
      (.planned { member := "title", type := .prim .text, declaration := 2, strategy := .direct
                  production := .read
                    (.path { head := 0, terminal := .prim .text, names := ["title"] })
                    (.passThrough (.prim .text)) none }, {}),
      (.excluded, {})] := by
  with_unfolding_all rfl

/-- The members of a line are accounted for: two are planned, two are not. -/
theorem members_accounted_ticketLine :
    ((ticketSchema.fields ticketLine.source).map (·.name)).Nodup ∧
      ((ticketSchema.fields ticketLine.destination).map (·.name)).Nodup ∧
      ∃ spec, (ticketLine.resolve ticketSchema {} { pair := "" }).result = .ok spec ∧
        ticketLine.Accounted ticketSchema {} spec
          (ticketLine.resolve ticketSchema {} { pair := "" }).session.stats ∧
        (ticketLine.resolve ticketSchema {} { pair := "" }).session.stats =
          { membersResolved := 2, membersExcluded := 1, membersIgnored := 1
            direct := 1, constants := 1 } := by
  have hsource : ((ticketSchema.fields ticketLine.source).map (·.name)).Nodup := by decide
  have hdestination : ((ticketSchema.fields ticketLine.destination).map (·.name)).Nodup := by decide
  have hok : (ticketLine.ledger ticketSchema (ticketLine.verdicts ticketSchema {})
      { pair := "" }).problems = [] := by
    rw [verdicts_ticketLine]
    with_unfolding_all rfl
  have h := resolve_ok_iff.mpr ⟨hok, rfl⟩
  refine ⟨hsource, hdestination, _, h,
    (members_accounted ticketSchema ticketLine {} "" hsource hdestination).1 _ h, ?_⟩
  rw [session_of_ok h, verdicts_ticketLine]
  with_unfolding_all rfl

end Config

end RecordMap
