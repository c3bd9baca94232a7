import RecordMap.Proofs.Plan.Search

/-!
# What becomes of a member

A configuration treats each writable member in one of four ways: the member is
ignored, it is a constant, it is read from the source, or it is left out because
nothing feeds it (`Config.treatment`).  The treatment is read off the
configuration; nothing is resolved for it.

The search for the plan of a member comes to the fate its treatment says, or it
rejects the member (`Config.decides_fateOf`).  No way out of the search is without
a note: a rejection is noted under the name of the member, unless the member has
several sources, which is reported apart from the search.
-/

namespace RecordMap

/-! ## §1. Treatments -/

/-- How a configuration treats a writable member. -/
inductive Treatment where
  | ignored
  | constant
  | read
  /-- Left out, because nothing feeds the member. -/
  | excluded
  deriving DecidableEq, Repr

/-- A member of the treatment is planned. -/
def Treatment.isPlanned : Treatment → Bool
  | constant | read => true
  | ignored | excluded => false

/-- The treatment a production belongs to. -/
def Production.treatment : Production → Treatment
  | constant _ => .constant
  | read .. => .read

theorem Production.isPlanned_treatment (p : Production) : p.treatment.isPlanned = true := by
  cases p <;> rfl

/-- The strategy a production is counted under. -/
def Production.strategy : Production → Strategy
  | constant _ => .constant
  | read _ conversion sentinel => Config.readStrategy conversion sentinel

/-- The converters and operators a production links. -/
def Production.converters : Production → List Converter
  | constant _ => []
  | read _ conversion _ => conversion.converters

namespace Config

/-- The member has a constant of its own. -/
def hasOwnConstant (c : Config) (member : String) : Bool :=
  match c.origin? member with
  | some (.constant _) => true
  | _ => false

/-- The member has a constant: its own, or one of the mapping or of the defaults
for its type. -/
def hasConstant (c : Config) (d : Defaults) (f : Field) : Bool :=
  c.hasOwnConstant f.name || (c.constants.get? f.type).isSome || (d.constants.get? f.type).isSome

/-- A readable member of the source has a matching name. -/
def hasNamesake (σ : Schema) (c : Config) (d : Defaults) (member : String) : Bool :=
  (σ.fields c.source).any fun g => g.readable && (c.nameMatcher d).accepts member g.name

/-- A flattened path has a matching name. -/
def hasFlattened (σ : Schema) (c : Config) (d : Defaults) (member : String) : Bool :=
  (Path.candidates σ c.source).any (Path.isFlattenedTo (c.nameMatcher d) member)

/-- Something feeds the member: an explicit source, a source member or a flattened
path. -/
def hasSource (σ : Schema) (c : Config) (d : Defaults) (member : String) : Bool :=
  (c.origin? member).isSome || c.hasNamesake σ d member || c.hasFlattened σ d member

/-- **The treatment of a member.** -/
def treatment (σ : Schema) (c : Config) (d : Defaults) (f : Field) : Treatment :=
  if c.ignores f.name then .ignored
  else if c.hasConstant d f then .constant
  else if c.hasSource σ d f.name then .read
  else .excluded

end Config

namespace Config

/-- No read member is counted as a constant. -/
theorem strategy_eq_constant_iff (p : Production) :
    p.strategy = .constant ↔ p.treatment = .constant := by
  cases p with
  | constant w => exact ⟨fun _ => rfl, fun _ => rfl⟩
  | read a conversion sentinel =>
    have hread : readStrategy conversion sentinel ≠ .constant := by
      unfold readStrategy
      split
      · simp
      · split
        · simp
        · split <;> simp
    exact ⟨fun h => absurd h hread, fun h => nomatch h⟩

/-! ## §2. What feeds a member -/

variable {σ : Schema} {c : Config} {d : Defaults} {type : Ty}

theorem isSome_constant? (f : RecordMap.Field) :
    (c.constant? d (c.origin? f.name) f.type).isSome = c.hasConstant d f := by
  unfold constant? hasConstant hasOwnConstant
  cases c.origin? f.name with
  | none => simp
  | some o => cases o <;> simp

/-- With distinct names, a readable member is the one found under its name. -/
theorem isSome_ofMember? {r : String} (hnames : ((σ.fields r).map (·.name)).Nodup)
    {g : RecordMap.Field} (hg : g ∈ σ.fields r) (hreadable : g.readable = true) :
    (Path.ofMember? σ r g.name).isSome = true := by
  obtain ⟨i, hi⟩ := List.mem_iff_getElem?.mp hg
  rw [Path.ofMember?_of_member hnames hi hreadable]
  rfl

/-- The search by name finds a path just if there is a namesake. -/
theorem isSome_namedPath? (hnames : ((σ.fields c.source).map (·.name)).Nodup) (member : String) :
    (namedPath? σ c d member).isSome = c.hasNamesake σ d member := by
  unfold namedPath? hasNamesake
  generalize hfind : List.find? _ (Path.readable σ c.source) = first
  cases first with
  | none =>
    symm
    rw [Option.bind_eq_bind, Option.bind_none, Option.isSome_none, List.any_eq_false]
    rintro g hg haccepts
    obtain ⟨i, hi⟩ := List.mem_iff_getElem?.mp hg
    rw [Bool.and_eq_true] at haccepts
    exact List.find?_eq_none.mp hfind (i, g) (Path.mem_readable.mpr ⟨hi, haccepts.1⟩) haccepts.2
  | some found =>
    obtain ⟨i, g⟩ := found
    obtain ⟨hi, hreadable⟩ := Path.mem_readable.mp (List.mem_of_find?_eq_some hfind)
    have hg : g ∈ σ.fields c.source := List.mem_of_getElem? hi
    have haccepts := List.find?_some hfind
    refine (isSome_ofMember? hnames hg hreadable).trans (List.any_eq_true.mpr ⟨g, hg, ?_⟩).symm
    rw [Bool.and_eq_true]
    exact ⟨hreadable, haccepts⟩

theorem isSome_flatten? (member : String) :
    (Path.flatten? σ c.source member (c.nameMatcher d)).isSome = c.hasFlattened σ d member := by
  rw [Path.flatten?_eq, List.isSome_find?]
  rfl

/-! ## §3. Fates -/

/-- **What a search decides**: the member has the fate of its treatment, or it is
rejected, for having several sources or with a problem that blames it. -/
inductive Decides (σ : Schema) (c : Config) (d : Defaults) (f : RecordMap.Field) :
    Fate → List Finding → Prop where
  | ignored (treated : c.treatment σ d f = .ignored) : Decides σ c d f .ignored []
  | excluded {fs : List Finding} (treated : c.treatment σ d f = .excluded)
      (linked : Finding.linked fs = 0) : Decides σ c d f .excluded fs
  | several (heeded : ¬ c.ignores f.name = true) (several : 1 < (c.origins f.name).length) :
      Decides σ c d f .rejected []
  | rejected {fs : List Finding} (blamed : Finding.Blames f.name fs) :
      Decides σ c d f .rejected fs
  | planned {plan : MemberPlan} {fs : List Finding}
      (treated : c.treatment σ d f = plan.production.treatment)
      (strategy : plan.strategy = plan.production.strategy)
      (linked : Finding.linked fs = plan.production.converters.length) :
      Decides σ c d f (.planned plan) fs

/-- The source of a plan that is read feeds the member. -/
theorem Sourced.hasSource (hnames : ((σ.fields c.source).map (·.name)).Nodup) {member : String}
    {a : Accessor} {conversion : Conversion}
    (h : c.Sourced σ d member type (c.origin? member) a conversion) :
    c.hasSource σ d member = true := by
  unfold Config.hasSource
  rw [← isSome_namedPath? hnames, ← isSome_flatten?]
  generalize c.origin? member = origin at h
  cases h with
  | path _ _ => rfl
  | provider _ => rfl
  | nested _ _ => rfl
  | automatic search _ =>
    rcases search with hnamed | hflat
    · simp [hnamed]
    · simp [hflat]

/-- A member without a source has no explicit one. -/
theorem Lacking.origin?_eq_none {f : RecordMap.Field} (h : c.Lacking σ d f) :
    c.origin? f.name = none := by
  obtain ⟨hnone, hexplicit, -, -⟩ := h
  cases ho : c.origin? f.name with
  | none => rfl
  | some o =>
    -- A constant of the member itself would have been found first.
    obtain ⟨v, rfl⟩ := hexplicit o ho
    rw [ho] at hnone
    cases hnone

theorem Lacking.accessor?_eq_none {f : RecordMap.Field} (h : c.Lacking σ d f) :
    c.accessor? σ d f.name (c.origin? f.name) = none := by
  have horigin := h.origin?_eq_none
  obtain ⟨-, -, hnamed, hflat⟩ := h
  rw [horigin]
  unfold accessor?
  rw [hnamed, hflat]
  rfl

theorem Lacking.source?_eq_none {f : RecordMap.Field} (h : c.Lacking σ d f) :
    c.source? σ d f.name f.type (c.origin? f.name) = none := by
  rw [source?_eq, h.accessor?_eq_none, Option.bind_none]

theorem Lacking.hasSource_eq (hnames : ((σ.fields c.source).map (·.name)).Nodup)
    {f : RecordMap.Field} (h : c.Lacking σ d f) : c.hasSource σ d f.name = false := by
  have horigin := h.origin?_eq_none
  obtain ⟨-, -, hnamed, hflat⟩ := h
  unfold hasSource
  rw [← isSome_namedPath? hnames, ← isSome_flatten?, hnamed, hflat, horigin]
  rfl

/-- A member is rejected with a problem that names it. -/
theorem Rejects.names {f : RecordMap.Field} {x : Diagnostic} {j : Journal}
    (h : c.Rejects σ d f x j) : x.member? = some f.name := by
  cases h <;> rfl

/-- A plan is counted under the strategy of its production. -/
theorem strategy_of_fateOf {declaration : Nat} {f : RecordMap.Field} {plan : MemberPlan}
    (h : (c.fateOf σ d declaration f).1 = .planned plan) :
    plan.strategy = plan.production.strategy := by
  obtain ⟨fs, j, -, hcomes⟩ := comes_of_fateOf h
  cases hcomes with
  | constant => rfl
  | read => rfl

/-- **The search decides** the fate of a member by its treatment, or rejects it with
a note. -/
theorem decides_fateOf (hnames : ((σ.fields c.source).map (·.name)).Nodup) (declaration : Nat)
    (f : RecordMap.Field) :
    c.Decides σ d f (c.fateOf σ d declaration f).1 (c.fateOf σ d declaration f).2.findings := by
  have hset : ∀ {v}, c.constant? d (c.origin? f.name) f.type = some v →
      c.hasConstant d f = true := by
    intro v hfirst
    rw [← isSome_constant?, hfirst]
    rfl
  have hunset : c.constant? d (c.origin? f.name) f.type = none → c.hasConstant d f = false := by
    intro hnone
    rw [← isSome_constant?, hnone]
    rfl
  obtain ⟨fate, fs, j, hfate, hcomes⟩ := comes_fateOf (σ := σ) (c := c) (d := d) declaration f
  rw [hfate]
  cases hcomes with
  | ignored unheeded => exact .ignored (if_pos unheeded)
  | several heeded several => exact .several (by simp [heeded]) several
  | constant heeds first fits =>
    refine .planned ?_ rfl (Finding.linked_ofTypes _)
    simp [treatment, heeds.heeded, hset first, plan, Production.treatment]
  | read heeds unset source spares guards =>
    have hsource := (sourced_of_source? source).hasSource hnames
    refine .planned ?_ rfl ?_
    · simp [treatment, heeds.heeded, hunset unset, hsource, plan, Production.treatment]
    · simp [plan, Production.converters]
  | excluded heeds lacking =>
    refine .excluded ?_ (Finding.linked_ofTypes _)
    simp [treatment, heeds.heeded, hunset lacking.1, lacking.hasSource_eq hnames]
  | rejected heeds before rejects =>
    exact .rejected ⟨_, List.mem_append_right _ (List.mem_singleton.mpr rfl), rejects.names⟩

end Config

end RecordMap
