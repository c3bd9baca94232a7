import RecordMap.Proofs.Conversion.Joins
import RecordMap.Proofs.Plan.Findings
import RecordMap.Proofs.Plan.Settings
import RecordMap.Proofs.Typing.Path

/-!
# What becomes of a member

The search for the plan of a member is put together from searches for its parts: a source, a
conversion, a sentinel, a value that fits.  Here each of them is gone through once, and how it
ends is said with nothing of the search left in it (`Config.ends_fit`, `Config.ends_readSource`,
`Config.ends_readProduction`, `Config.ends_searchMember`).

So `Config.Comes` lists every way that the search for a member can go, each with the fate of the
member, the findings noted and the callbacks run.  What holds of fates, problems, declared types
or journals is read off these few ways.

The plan of a member says where its source comes from (`Config.Sourced`), how a configured value
is fitted (`Config.Fits`), which sentinel guards it (`Config.Guarded`), and how the value is
produced (`Config.Produces`).  The source of a plan leads where the plan says, and its conversion
joins the types.
-/

namespace RecordMap

/-- The type declared by the provider of a source, if it is one. -/
def Accessor.parameter? : Accessor → Option Ty
  | path _ => none
  | provider p => p.parameter?

/-- The path that an explicit source asks for, if it is one along a path. -/
def Origin.text? : Origin → Option String
  | path text => some text
  | nested text _ => some text
  | _ => none

namespace Finding

/-- What is noted of a source: the type of its provider, and that its path is flattened. -/
def ofSource (a : Accessor) (isFlattened : Bool) : List Finding :=
  ofTypes a.parameter?.toList ++ if isFlattened then [flattened] else []

variable (a : Accessor) (isFlattened : Bool)

@[simp] theorem linked_ofSource : linked (ofSource a isFlattened) = 0 := by
  unfold ofSource
  rw [linked_append, linked_ofTypes]
  cases isFlattened <;> rfl

@[simp] theorem parameters_ofSource :
    parameters (ofSource a isFlattened) = a.parameter?.toList := by
  unfold ofSource
  rw [parameters_append, parameters_ofTypes]
  cases isFlattened <;> exact List.append_nil _

@[simp] theorem problems_ofSource : (ofSource a isFlattened).filterMap problem? = [] := by
  unfold ofSource
  rw [List.filterMap_append, problems_ofTypes]
  cases isFlattened <;> rfl

end Finding

/-- The end of a search with a fate. -/
def Fate.result : Fate → Except Fate MemberPlan
  | planned p => .ok p
  | fate => .error fate

namespace Config

/-! ## §1. Values that fit -/

/-- **What comes of a value** that is fitted to the type of a member: the value it becomes or
the reason why it cannot be used, with the callbacks run. -/
def fitting (σ : Schema) (c : Config) (d : Defaults) (type : Ty) (v : Value) :
    Except String Value × Journal :=
  if v.type = type then (.ok v, {})
  else
    match (c.scope d).resolve v.type type with
    | none => (.error ("no conversion from " ++ σ.name v.type ++ " to " ++ σ.name type), {})
    | some conversion =>
        if conversion.isNested then (.error "a nested mapping cannot produce a constant", {})
        else (fitted σ type (conversion.evaluate σ v).1, (conversion.evaluate σ v).2)

/-- **The fitted value** of a configured one: itself, or what the conversion found
for the two types gives outside of any call. -/
inductive Fits (σ : Schema) (c : Config) (d : Defaults) (type : Ty) : Value → Value → Prop where
  | same {v : Value} (typed : v.type = type) : Fits σ c d type v v
  | converted {v w : Value} {conversion : Conversion} (differs : v.type ≠ type)
      (found : (c.scope d).resolve v.type type = some conversion)
      (flat : conversion.isNested = false)
      (gives : (conversion.evaluate σ v).1 = .ok (some w)) (typed : w.type = type) :
      Fits σ c d type v w

variable {σ : Schema} {c : Config} {d : Defaults} {member : String} {type : Ty}

theorem fits_of_fitted {v out : Value} {conversion : Conversion} (differs : v.type ≠ type)
    (found : (c.scope d).resolve v.type type = some conversion)
    (flat : conversion.isNested = false)
    (h : fitted σ type (conversion.evaluate σ v).1 = .ok out) : c.Fits σ d type v out := by
  unfold fitted at h
  split at h
  · cases h
  · cases h
  · rename_i out' hgives
    split at h
    · rename_i has
      obtain ⟨htyped, rfl⟩ := Value.as?_eq_some_iff.mp has
      cases h
      exact .converted differs found flat hgives htyped
    · cases h

theorem fits_of_fitting {v w : Value} {j : Journal} (h : c.fitting σ d type v = (.ok w, j)) :
    c.Fits σ d type v w := by
  unfold fitting at h
  split at h
  · cases h
    exact .same ‹_›
  · rename_i hdiffers
    split at h
    · cases h
    · rename_i conversion hfound
      split at h
      · cases h
      · rename_i hflat
        exact fits_of_fitted hdiffers hfound (by simpa using hflat) (congrArg Prod.fst h)

/-- **Fitting** has the outcome that the value and the type determine. -/
theorem ends_fit (member : String) (type : Ty) (v : Value) :
    match c.fitting σ d type v with
    | (.ok w, j) => (c.fit σ d member type v).Ends (.ok w) [] j
    | (.error reason, j) => (c.fit σ d member type v).Ends (.error .rejected)
        [.problem (.constantConversion member reason)] j := by
  unfold fit fitting
  by_cases htype : v.type = type
  · rw [if_pos htype, if_pos htype]
    exact .pure v
  · rw [if_neg htype, if_neg htype]
    cases (c.scope d).resolve v.type type with
    | none => exact .reject _
    | some conversion =>
      dsimp only
      by_cases hnested : conversion.isNested = true
      · rw [if_pos hnested, if_pos hnested]
        exact .reject _
      · rw [if_neg hnested, if_neg hnested]
        have hran := Search.Ends.ran (conversion.evaluate σ v).2
        cases fitted σ type (conversion.evaluate σ v).1 with
        | ok w => exact hran.returns rfl
        | error reason => exact hran.rejects rfl

/-! ## §2. Sources -/

/-- Where the value of a member is obtained from, if it is there. -/
def accessor? (σ : Schema) (c : Config) (d : Defaults) (member : String) :
    Option Origin → Option Accessor
  | some (.path text) => (Path.parse? σ c.source text).map .path
  | some (.provider p) => some (.provider p)
  | some (.nested text _) => (Path.parse? σ c.source text).map .path
  | _ => ((namedPath? σ c d member).or
      (Path.flatten? σ c.source member (c.nameMatcher d))).map .path

theorem accessor?_of_text {origin : Option Origin} {text : String}
    (h : origin.bind (·.text?) = some text) :
    c.accessor? σ d member origin = (Path.parse? σ c.source text).map .path := by
  match origin with
  | some (.path _) =>
    cases h
    rfl
  | some (.nested _ _) =>
    cases h
    rfl

/-- The conversion of what is obtained. -/
def conversion? (c : Config) (d : Defaults) (source type : Ty) : Option Origin → Option Conversion
  | some (.nested _ profile) => Scope.nesting (profile.or c.profile) source type
  | _ => (c.scope d).resolve source type

/-- The source of a member that is read and its conversion, if both are there. -/
def source? (σ : Schema) (c : Config) (d : Defaults) (member : String) (type : Ty) :
    Option Origin → Option (Accessor × Conversion)
  | some (.path text) => do
      let p ← Path.parse? σ c.source text
      let conversion ← (c.scope d).resolve p.terminal type
      return (.path p, conversion)
  | some (.provider p) => do
      let conversion ← (c.scope d).resolve p.output type
      return (.provider p, conversion)
  | some (.nested text profile) => do
      let p ← Path.parse? σ c.source text
      let conversion ← Scope.nesting (profile.or c.profile) p.terminal type
      return (.path p, conversion)
  | _ => do
      let p ← (namedPath? σ c d member).or (Path.flatten? σ c.source member (c.nameMatcher d))
      let conversion ← (c.scope d).resolve p.terminal type
      return (.path p, conversion)

theorem source?_eq (origin : Option Origin) : c.source? σ d member type origin =
    (c.accessor? σ d member origin).bind fun a =>
      (c.conversion? d a.type type origin).map fun k => (a, k) := by
  have hpath : ∀ (o : Option Path) (found : Ty → Option Conversion),
      (do
        let p ← o
        let k ← found p.terminal
        return (Accessor.path p, k)) =
      (o.map Accessor.path).bind fun a => (found a.type).map fun k => (a, k) := by
    intro o found
    cases o with
    | none => rfl
    | some p => cases hk : found p.terminal <;> simp [Accessor.type, hk]
  match origin with
  | none => exact hpath _ fun t => (c.scope d).resolve t type
  | some (.path text) => exact hpath _ fun t => (c.scope d).resolve t type
  | some (.nested text profile) =>
    exact hpath _ fun t => Scope.nesting (profile.or c.profile) t type
  | some (.constant v) => exact hpath _ fun t => (c.scope d).resolve t type
  | some (.provider p) =>
    unfold source? accessor? conversion?
    cases hk : (c.scope d).resolve p.output type <;> simp [Accessor.type, hk]

/-- **The source of a member** and its conversion, for what is configured. -/
inductive Sourced (σ : Schema) (c : Config) (d : Defaults) (member : String) (type : Ty) :
    Option Origin → Accessor → Conversion → Prop where
  | path {text : String} {p : Path} {conversion : Conversion}
      (parsed : Path.parse? σ c.source text = some p)
      (found : (c.scope d).resolve p.terminal type = some conversion) :
      Sourced σ c d member type (some (.path text)) (.path p) conversion
  | provider {p : Provider} {conversion : Conversion}
      (found : (c.scope d).resolve p.output type = some conversion) :
      Sourced σ c d member type (some (.provider p)) (.provider p) conversion
  | nested {text : String} {profile : Option String} {p : Path} {conversion : Conversion}
      (parsed : Path.parse? σ c.source text = some p)
      (found : Scope.nesting (profile.or c.profile) p.terminal type = some conversion) :
      Sourced σ c d member type (some (.nested text profile)) (.path p) conversion
  | automatic {origin : Option Origin} {p : Path} {conversion : Conversion}
      (search : namedPath? σ c d member = some p ∨
        Path.flatten? σ c.source member (c.nameMatcher d) = some p)
      (found : (c.scope d).resolve p.terminal type = some conversion) :
      Sourced σ c d member type origin (.path p) conversion

theorem sourced_of_source? {origin : Option Origin} {a : Accessor} {conversion : Conversion}
    (h : c.source? σ d member type origin = some (a, conversion)) :
    c.Sourced σ d member type origin a conversion := by
  have hautomatic : c.source? σ d member type none = some (a, conversion) →
      c.Sourced σ d member type origin a conversion := by
    intro h
    obtain ⟨p, hp, h⟩ := Option.bind_eq_some_iff.mp h
    obtain ⟨k, hk, h⟩ := Option.bind_eq_some_iff.mp h
    cases h
    refine .automatic ?_ hk
    cases hnamed : namedPath? σ c d member with
    | some q =>
      rw [hnamed] at hp
      exact .inl hp
    | none =>
      rw [hnamed, Option.none_or] at hp
      exact .inr hp
  match origin with
  | none => exact hautomatic h
  | some (.path text) =>
    obtain ⟨p, hp, h⟩ := Option.bind_eq_some_iff.mp h
    obtain ⟨k, hk, h⟩ := Option.bind_eq_some_iff.mp h
    cases h
    exact .path hp hk
  | some (.provider p) =>
    obtain ⟨k, hk, h⟩ := Option.bind_eq_some_iff.mp h
    cases h
    exact .provider hk
  | some (.nested text profile) =>
    obtain ⟨p, hp, h⟩ := Option.bind_eq_some_iff.mp h
    obtain ⟨k, hk, h⟩ := Option.bind_eq_some_iff.mp h
    cases h
    exact .nested hp hk
  -- A constant is no source that is read.
  | some (.constant v) => exact hautomatic h

/-- **The ways to look for a source** and its conversion, each with its end and its findings. -/
inductive Reads (σ : Schema) (c : Config) (d : Defaults) (member : String) (type : Ty)
    (origin : Option Origin) : Except Fate (Accessor × Conversion) → List Finding → Prop where
  | found {a : Accessor} {conversion : Conversion} {isFlattened : Bool}
      (source : c.accessor? σ d member origin = some a)
      (found : c.conversion? d a.type type origin = some conversion) :
      Reads σ c d member type origin (.ok (a, conversion)) (Finding.ofSource a isFlattened)
  | unconverted {a : Accessor} {isFlattened : Bool}
      (source : c.accessor? σ d member origin = some a)
      (missing : c.conversion? d a.type type origin = none) :
      Reads σ c d member type origin (.error .rejected)
        (Finding.ofSource a isFlattened ++
          [.problem (.noConversion member (σ.name a.type) (σ.name type))])
  | unknown {text : String} (asked : origin.bind (·.text?) = some text)
      (missing : Path.parse? σ c.source text = none) :
      Reads σ c d member type origin (.error .rejected) [.problem (.unknownSourcePath member text)]
  | unfed (unset : ∀ o, origin = some o → ∃ v, o = .constant v)
      (unnamed : namedPath? σ c d member = none)
      (unflattened : Path.flatten? σ c.source member (c.nameMatcher d) = none) :
      Reads σ c d member type origin (.error .excluded) []

theorem ends_explicitPath (member text : String) :
    match Path.parse? σ c.source text with
    | some p => (c.explicitPath σ member text).Ends (.ok p) [] {}
    | none => (c.explicitPath σ member text).Ends (.error .rejected)
        [.problem (.unknownSourcePath member text)] {} := by
  unfold explicitPath
  cases Path.parse? σ c.source text with
  | some p => exact .pure p
  | none => exact .reject _

theorem ends_automaticPath (member : String) :
    match (namedPath? σ c d member).or (Path.flatten? σ c.source member (c.nameMatcher d)) with
    | some p => ∃ isFlattened,
        (c.automaticPath σ d member).Ends (.ok p) (Finding.ofSource (.path p) isFlattened) {}
    | none => (c.automaticPath σ d member).Ends (.error .excluded) [] {} := by
  unfold automaticPath
  cases namedPath? σ c d member with
  | some p => exact ⟨false, .pure p⟩
  | none =>
    rw [Option.none_or]
    cases Path.flatten? σ c.source member (c.nameMatcher d) with
    | some p => exact ⟨true, (Search.Ends.note _).returns rfl⟩
    | none => exact .throw _

section Sources

variable {origin : Option Origin}

/-- What is obtained is followed by its conversion. -/
theorem reads_converted {α : Type} (source : α → Accessor) (found : α → Option Conversion)
    {x : Search α} {a : α} (isFlattened : Bool)
    (hx : x.Ends (.ok a) (Finding.ofSource (source a) isFlattened) {})
    (hsource : c.accessor? σ d member origin = some (source a))
    (hfound : c.conversion? d (source a).type type origin = found a) :
    ∃ r fs, (do
        let a ← x
        let conversion ← requireConversion σ member (source a).type type (found a)
        return (source a, conversion)).Ends r fs {} ∧ c.Reads σ d member type origin r fs := by
  cases hconversion : found a with
  | none =>
    refine ⟨_, _, hx.after ?_, .unconverted hsource (hfound.trans hconversion)⟩
    rw [hconversion]
    exact (Search.Ends.reject _).early
  | some conversion =>
    refine ⟨_, _, hx.returns ?_, .found hsource (hfound.trans hconversion)⟩
    rw [hconversion]
    rfl

theorem reads_explicit {text : String} (found : Path → Option Conversion)
    (hasked : origin.bind (·.text?) = some text)
    (hfound : ∀ p : Path, c.conversion? d p.terminal type origin = found p) :
    ∃ r fs, (do
        let p ← c.explicitPath σ member text
        let conversion ← requireConversion σ member p.terminal type (found p)
        return (Accessor.path p, conversion)).Ends r fs {} ∧
      c.Reads σ d member type origin r fs := by
  have hpath := ends_explicitPath (σ := σ) (c := c) member text
  have hsource : c.accessor? σ d member origin = (Path.parse? σ c.source text).map .path :=
    accessor?_of_text hasked
  cases hp : Path.parse? σ c.source text with
  | none =>
    rw [hp] at hpath
    exact ⟨_, _, hpath.early, .unknown hasked hp⟩
  | some p =>
    rw [hp] at hpath hsource
    exact reads_converted Accessor.path found false hpath hsource (hfound p)

theorem reads_automatic (hunset : ∀ o, origin = some o → ∃ v, o = .constant v) :
    ∃ r fs, (c.readSource σ d member type none).Ends r fs {} ∧
      c.Reads σ d member type origin r fs := by
  -- A constant that was configured counts for nothing here.
  have hsource : c.accessor? σ d member origin = c.accessor? σ d member none := by
    cases origin with
    | none => rfl
    | some o =>
      obtain ⟨v, rfl⟩ := hunset o rfl
      rfl
  have hfound : ∀ t, c.conversion? d t type origin = (c.scope d).resolve t type := by
    intro t
    cases origin with
    | none => rfl
    | some o =>
      obtain ⟨v, rfl⟩ := hunset o rfl
      rfl
  have hpath := ends_automaticPath (σ := σ) (c := c) (d := d) member
  cases hp : (namedPath? σ c d member).or (Path.flatten? σ c.source member (c.nameMatcher d)) with
  | none =>
    rw [hp] at hpath
    obtain ⟨hunnamed, hunflattened⟩ := Option.or_eq_none_iff.mp hp
    exact ⟨_, _, hpath.early, .unfed hunset hunnamed hunflattened⟩
  | some p =>
    rw [hp] at hpath
    obtain ⟨isFlattened, hpath⟩ := hpath
    refine reads_converted Accessor.path (fun p => (c.scope d).resolve p.terminal type) isFlattened
      hpath ?_ (hfound p.terminal)
    rw [hsource]
    unfold accessor?
    rw [hp]
    rfl

/-- **The search for a source** goes one of these ways, and runs no callback. -/
theorem ends_readSource (member : String) (type : Ty) (origin : Option Origin) :
    ∃ r fs, (c.readSource σ d member type origin).Ends r fs {} ∧
      c.Reads σ d member type origin r fs := by
  match origin with
  | none => exact reads_automatic nofun
  | some (.path text) =>
    exact reads_explicit (fun p => (c.scope d).resolve p.terminal type) rfl fun _ => rfl
  | some (.provider p) =>
    have hnoted : (Search.noteParameter p.parameter?).Ends (.ok ())
        (Finding.ofSource (.provider p) false) {} := by
      have h := Search.Ends.noteParameter p.parameter?
      rw [← List.append_nil (Finding.ofTypes _)] at h
      exact h
    exact reads_converted (fun _ => .provider p) (fun _ => (c.scope d).resolve p.output type)
      false hnoted rfl rfl
  | some (.nested text profile) =>
    exact reads_explicit (fun p => Scope.nesting (profile.or c.profile) p.terminal type) rfl
      fun _ => rfl
  | some (.constant v) =>
    exact reads_automatic fun o ho => ⟨v, (Option.some.inj ho).symm⟩

end Sources

/-! ## §3. Productions -/

/-- **The sentinel of a plan**: the fitted value of the first one configured, where
an absent source meets a member that cannot be absent; none otherwise. -/
inductive Guarded (σ : Schema) (c : Config) (d : Defaults) (explicit : Option MemberConfig)
    (type : Ty) (a : Accessor) : Option Value → Prop where
  | sentinel {v w : Value} (needed : needsSentinel a type = true)
      (first : c.sentinel? d explicit type = some v) (fits : c.Fits σ d type v w) :
      Guarded σ c d explicit type a (some w)
  | unguarded (lacking : needsSentinel a type = true → c.sentinel? d explicit type = none) :
      Guarded σ c d explicit type a none

/-- **How the value of a member is produced.** -/
inductive Produces (σ : Schema) (c : Config) (d : Defaults) (explicit : Option MemberConfig)
    (member : String) (type : Ty) (origin : Option Origin) : Production → Prop where
  | constant {v w : Value} (first : c.constant? d origin type = some v)
      (fits : c.Fits σ d type v w) :
      Produces σ c d explicit member type origin (.constant w)
  | read {a : Accessor} {conversion : Conversion} {sentinel : Option Value}
      (sourced : c.Sourced σ d member type origin a conversion)
      (guarded : c.Guarded σ d explicit type a sentinel) :
      Produces σ c d explicit member type origin (.read a conversion sentinel)

/-- The plan is one for the member declared at a position. -/
structure Plans (σ : Schema) (c : Config) (d : Defaults) (declaration : Nat)
    (f : RecordMap.Field) (plan : MemberPlan) : Prop where
  member : plan.member = f.name
  type : plan.type = f.type
  declaration : plan.declaration = declaration
  production :
    c.Produces σ d (c.member? f.name) f.name f.type (c.origin? f.name) plan.production

/-- The sentinel of a read member, with the callbacks run to fit it. -/
inductive Guards (σ : Schema) (c : Config) (d : Defaults) (explicit : Option MemberConfig)
    (type : Ty) (a : Accessor) : Option Value → Journal → Prop where
  | sentinel {v w : Value} {j : Journal} (needed : needsSentinel a type = true)
      (first : c.sentinel? d explicit type = some v) (fits : c.fitting σ d type v = (.ok w, j)) :
      Guards σ c d explicit type a (some w) j
  | unguarded (lacking : needsSentinel a type = true → c.sentinel? d explicit type = none) :
      Guards σ c d explicit type a none {}

theorem Guards.guarded {explicit : Option MemberConfig} {a : Accessor} {s : Option Value}
    {j : Journal} (h : c.Guards σ d explicit type a s j) : c.Guarded σ d explicit type a s := by
  cases h with
  | sentinel needed first fits => exact .sentinel needed first (fits_of_fitting fits)
  | unguarded lacking => exact .unguarded lacking

/-- A sentinel is looked up in what is configured for the member. -/
theorem Guards.of_settings {name : String} {a : Accessor} {s : Option Value} {j : Journal}
    (h : c.Guards σ d (some (c.settings name)) type a s j) :
    c.Guards σ d (c.member? name) type a s j := by
  cases h with
  | sentinel needed first fits =>
    rw [sentinel?_settings] at first
    exact .sentinel needed first fits
  | unguarded lacking =>
    rw [sentinel?_settings] at lacking
    exact .unguarded lacking

/-- **The ways to produce a member that is read**, each with its end, its findings and the
callbacks run. -/
inductive Yields (σ : Schema) (c : Config) (d : Defaults) (explicit : Option MemberConfig)
    (member : String) (type : Ty) (a : Accessor) (conversion : Conversion) :
    Except Fate (Strategy × Production) → List Finding → Journal → Prop where
  | own (nested : c.pairing ∈ conversion.pairings) :
      Yields σ c d explicit member type a conversion (.error .rejected)
        [.problem (.selfReferentialNesting member (c.pairing.name σ))] {}
  | given {s : Option Value} {j : Journal} (spares : c.pairing ∉ conversion.pairings)
      (guards : c.Guards σ d explicit type a s j) :
      Yields σ c d explicit member type a conversion
        (.ok (readStrategy conversion s, .read a conversion s))
        (Finding.ofConverters conversion.converters) j
  | unfit {v : Value} {reason : String} {j : Journal} (spares : c.pairing ∉ conversion.pairings)
      (needed : needsSentinel a type = true) (first : c.sentinel? d explicit type = some v)
      (misfits : c.fitting σ d type v = (.error reason, j)) :
      Yields σ c d explicit member type a conversion (.error .rejected)
        (Finding.ofConverters conversion.converters ++
          [.problem (.constantConversion member reason)]) j

/-- A conversion nests the pairing of its own mapping just if that is found among its pairings. -/
theorem find?_pairings_eq (conversion : Conversion) (p : Pairing) :
    conversion.pairings.find? (· == p) = if p ∈ conversion.pairings then some p else none := by
  cases hfound : conversion.pairings.find? (· == p) with
  | none =>
    have hnone : p ∉ conversion.pairings := by
      intro hmem
      simpa using List.find?_eq_none.mp hfound p hmem
    rw [if_neg hnone]
  | some own =>
    have hown : own = p := by simpa using List.find?_some hfound
    rw [hown] at hfound ⊢
    rw [if_pos (List.mem_of_find?_eq_some hfound)]

/-- **The search for a production** goes one of these ways. -/
theorem ends_readProduction (explicit : Option MemberConfig) (member : String) (type : Ty)
    (a : Accessor) (conversion : Conversion) :
    ∃ r fs j, (c.readProduction σ d explicit member type a conversion).Ends r fs j ∧
      c.Yields σ d explicit member type a conversion r fs j := by
  unfold readProduction
  dsimp only
  rw [find?_pairings_eq]
  by_cases hown : c.pairing ∈ conversion.pairings
  · rw [if_pos hown]
    exact ⟨_, _, _, (Search.Ends.reject _).early, .own hown⟩
  · rw [if_neg hown]
    have hlinks := Search.Ends.linkConverters conversion.converters
    cases hfirst : (if needsSentinel a type then c.sentinel? d explicit type else none) with
    | none =>
      refine ⟨_, _, _, hlinks.returns rfl, .given hown (.unguarded ?_)⟩
      intro hneeded
      rwa [if_pos hneeded] at hfirst
    | some v =>
      have hneeded : needsSentinel a type = true := by
        by_contra hunneeded
        rw [if_neg hunneeded] at hfirst
        cases hfirst
      rw [if_pos hneeded] at hfirst
      have hfit := ends_fit (σ := σ) (c := c) (d := d) member type v
      rcases hfits : c.fitting σ d type v with ⟨reason | w, j⟩
      · rw [hfits] at hfit
        exact ⟨_, _, _, hlinks.after hfit.early.early, .unfit hown hneeded hfirst hfits⟩
      · rw [hfits] at hfit
        have hsome : (some <$> c.fit σ d member type v).Ends (.ok (some w)) [] j :=
          hfit.returns rfl
        refine ⟨_, _, _, hlinks.after (hsome.returns rfl), ?_⟩
        rw [List.append_nil]
        exact .given hown (.sentinel hneeded hfirst hfits)

/-! ## §4. Members -/

/-- The plan of a member with a production. -/
def plan (c : Config) (declaration : Nat) (f : RecordMap.Field) (produced : Strategy × Production) :
    MemberPlan where
  member := f.name
  type := f.type
  declaration
  order := (c.settings f.name).order.getD 0
  strategy := produced.1
  conditions := (c.settings f.name).conditions
  production := produced.2

/-- A member is left without a source if it has no constant, no explicit source
and no automatic one. -/
def Lacking (σ : Schema) (c : Config) (d : Defaults) (f : RecordMap.Field) : Prop :=
  c.constant? d (c.origin? f.name) f.type = none ∧
    (∀ o, c.origin? f.name = some o → ∃ v, o = .constant v) ∧
    namedPath? σ c d f.name = none ∧ Path.flatten? σ c.source f.name (c.nameMatcher d) = none

/-- **Why a heeded member is rejected**: the problem found, with the callbacks run until then. -/
inductive Rejects (σ : Schema) (c : Config) (d : Defaults) (f : RecordMap.Field) :
    Diagnostic → Journal → Prop where
  | constant {v : Value} {reason : String} {j : Journal}
      (first : c.constant? d (c.origin? f.name) f.type = some v)
      (misfits : c.fitting σ d f.type v = (.error reason, j)) :
      Rejects σ c d f (.constantConversion f.name reason) j
  | unknown {text : String} (unset : c.constant? d (c.origin? f.name) f.type = none)
      (asked : (c.origin? f.name).bind (·.text?) = some text)
      (missing : Path.parse? σ c.source text = none) :
      Rejects σ c d f (.unknownSourcePath f.name text) {}
  | unconverted {a : Accessor} (unset : c.constant? d (c.origin? f.name) f.type = none)
      (source : c.accessor? σ d f.name (c.origin? f.name) = some a)
      (missing : c.conversion? d a.type f.type (c.origin? f.name) = none) :
      Rejects σ c d f (.noConversion f.name (σ.name a.type) (σ.name f.type)) {}
  | own {a : Accessor} {conversion : Conversion}
      (unset : c.constant? d (c.origin? f.name) f.type = none)
      (source : c.source? σ d f.name f.type (c.origin? f.name) = some (a, conversion))
      (nested : c.pairing ∈ conversion.pairings) :
      Rejects σ c d f (.selfReferentialNesting f.name (c.pairing.name σ)) {}
  | sentinel {a : Accessor} {conversion : Conversion} {v : Value} {reason : String} {j : Journal}
      (unset : c.constant? d (c.origin? f.name) f.type = none)
      (source : c.source? σ d f.name f.type (c.origin? f.name) = some (a, conversion))
      (spares : c.pairing ∉ conversion.pairings)
      (first : c.sentinel? d (c.member? f.name) f.type = some v)
      (misfits : c.fitting σ d f.type v = (.error reason, j)) :
      Rejects σ c d f (.constantConversion f.name reason) j

/-- **What becomes of a member**: the ways its search can go, each with the fate of the member,
the findings noted and the callbacks run. -/
inductive Comes (σ : Schema) (c : Config) (d : Defaults) (i : Nat) (f : RecordMap.Field) :
    Fate → List Finding → Journal → Prop where
  | ignored (unheeded : c.ignores f.name = true) : Comes σ c d i f .ignored [] {}
  | several (heeded : c.ignores f.name = false) (several : 1 < (c.origins f.name).length) :
      Comes σ c d i f .rejected [] {}
  | constant {v w : Value} {j : Journal} (heeds : c.Heeds f.name)
      (first : c.constant? d (c.origin? f.name) f.type = some v)
      (fits : c.fitting σ d f.type v = (.ok w, j)) :
      Comes σ c d i f (.planned (c.plan i f (.constant, .constant w)))
        (Finding.ofTypes (c.conditionParameters f.name)) j
  | read {a : Accessor} {conversion : Conversion} {s : Option Value} {isFlattened : Bool}
      {j : Journal} (heeds : c.Heeds f.name)
      (unset : c.constant? d (c.origin? f.name) f.type = none)
      (source : c.source? σ d f.name f.type (c.origin? f.name) = some (a, conversion))
      (spares : c.pairing ∉ conversion.pairings)
      (guards : c.Guards σ d (c.member? f.name) f.type a s j) :
      Comes σ c d i f
        (.planned (c.plan i f (readStrategy conversion s, .read a conversion s)))
        (Finding.ofTypes (c.conditionParameters f.name) ++
          (Finding.ofSource a isFlattened ++ Finding.ofConverters conversion.converters)) j
  | excluded (heeds : c.Heeds f.name) (lacking : c.Lacking σ d f) :
      Comes σ c d i f .excluded (Finding.ofTypes (c.conditionParameters f.name)) {}
  | rejected {fs : List Finding} {x : Diagnostic} {j : Journal} (heeds : c.Heeds f.name)
      (before : fs.filterMap Finding.problem? = []) (rejects : c.Rejects σ d f x j) :
      Comes σ c d i f .rejected (fs ++ [.problem x]) j

section Heeded

variable {f : RecordMap.Field} (h : c.Heeds f.name) (i : Nat)

include h

/-- **The search for a heeded member** notes the types of its conditions, and is up to its
production from there on. -/
theorem Heeds.ends_searchMember {r : Except Fate (Strategy × Production)} {fs : List Finding}
    {j : Journal} (hproduction : (c.production σ d f (c.settings f.name)).Ends r fs j) :
    (c.searchMember σ d i f).Ends (r.map (c.plan i f))
      (Finding.ofTypes (c.conditionParameters f.name) ++ fs) j := by
  have hheeded : ¬ c.ignores f.name = true := by simp [h.heeded]
  have hsingle : ¬ 1 < (c.origins f.name).length := by
    have := h.single
    omega
  have hnoted : (Search.noteParameters ((c.settings f.name).conditions.map (·.parameter?))).Ends
      (.ok ()) (Finding.ofTypes (c.conditionParameters f.name)) {} := by
    have hnotes := Search.Ends.noteParameters ((c.settings f.name).conditions.map (·.parameter?))
    rw [List.filterMap_map] at hnotes
    rw [← conditions_settings]
    exact hnotes
  rw [searchMember_eq]
  dsimp only
  rw [ignored_settings, origins_settings, if_neg hheeded, if_neg hsingle]
  exact hnoted.after (hproduction.map (c.plan i f))

/-- A heeded member with a constant. -/
theorem Heeds.ends_constant {v : Value}
    (hconstant : c.constant? d (c.origin? f.name) f.type = some v) :
    ∃ fate fs j, (c.searchMember σ d i f).Ends fate.result fs j ∧ c.Comes σ d i f fate fs j := by
  have hproduction := production_constant (σ := σ) (f := f) (s := c.settings f.name)
    ((origin?_settings c f.name).symm ▸ hconstant)
  have hfit := ends_fit (σ := σ) (c := c) (d := d) f.name f.type v
  rcases hfits : c.fitting σ d f.type v with ⟨reason | w, j⟩
  · rw [hfits] at hfit
    have hsearch := h.ends_searchMember i (hproduction ▸ hfit.early)
    exact ⟨.rejected, _, _, hsearch,
      .rejected h (Finding.problems_ofTypes _) (.constant hconstant hfits)⟩
  · rw [hfits] at hfit
    have hproduced : (c.production σ d f (c.settings f.name)).Ends
        (.ok (.constant, .constant w)) [] j := by
      rw [hproduction]
      exact hfit.returns rfl
    refine ⟨.planned (c.plan i f (.constant, .constant w)), _, _,
      h.ends_searchMember i hproduced, ?_⟩
    rw [List.append_nil]
    exact .constant h hconstant hfits

/-- A heeded member that is read. -/
theorem Heeds.ends_read (hunset : c.constant? d (c.origin? f.name) f.type = none) :
    ∃ fate fs j, (c.searchMember σ d i f).Ends fate.result fs j ∧ c.Comes σ d i f fate fs j := by
  have hproduction := production_read (σ := σ) (f := f) (s := c.settings f.name)
    ((origin?_settings c f.name).symm ▸ hunset)
  rw [origin?_settings] at hproduction
  obtain ⟨r, fs, hsource, hreads⟩ :=
    ends_readSource (σ := σ) (c := c) (d := d) f.name f.type (c.origin? f.name)
  -- The search goes on to its production only with a source and a conversion.
  cases hreads with
  | unfed unset unnamed unflattened =>
    have hsearch := h.ends_searchMember i (hproduction ▸ hsource.early)
    refine ⟨.excluded, _, _, hsearch, ?_⟩
    rw [List.append_nil]
    exact .excluded h ⟨hunset, unset, unnamed, unflattened⟩
  | unknown asked missing =>
    have hsearch := h.ends_searchMember i (hproduction ▸ hsource.early)
    exact ⟨.rejected, _, _, hsearch,
      .rejected h (Finding.problems_ofTypes _) (.unknown hunset asked missing)⟩
  | @unconverted a isFlattened source missing =>
    have hsearch := h.ends_searchMember i (hproduction ▸ hsource.early)
    refine ⟨.rejected, _, _, hsearch, ?_⟩
    rw [← List.append_assoc]
    exact .rejected h (by simp) (.unconverted hunset source missing)
  | @found a conversion isFlattened source found =>
    have hfound : c.source? σ d f.name f.type (c.origin? f.name) = some (a, conversion) := by
      rw [source?_eq, source, Option.bind_some, found]
      rfl
    obtain ⟨r, gs, j, hproduce, hyields⟩ := ends_readProduction (σ := σ) (c := c) (d := d)
      (some (c.settings f.name)) f.name f.type a conversion
    have hsearch := h.ends_searchMember i (hproduction ▸ hsource.after hproduce)
    cases hyields with
    | own nested =>
      refine ⟨.rejected, _, _, hsearch, ?_⟩
      rw [← List.append_assoc]
      exact .rejected h (by simp) (.own hunset hfound nested)
    | unfit spares needed first misfits =>
      rw [sentinel?_settings] at first
      refine ⟨.rejected, _, _, hsearch, ?_⟩
      rw [← List.append_assoc, ← List.append_assoc]
      exact .rejected h (by simp) (.sentinel hunset hfound spares first misfits)
    | @given s j spares guards =>
      exact ⟨.planned (c.plan i f (readStrategy conversion s, .read a conversion s)), _, _,
        hsearch, .read h hunset hfound spares guards.of_settings⟩

end Heeded

/-- **The search for the plan of a member** goes one of these ways. -/
theorem ends_searchMember (i : Nat) (f : RecordMap.Field) :
    ∃ fate fs j, (c.searchMember σ d i f).Ends fate.result fs j ∧ c.Comes σ d i f fate fs j := by
  by_cases hignored : c.ignores f.name = true
  · refine ⟨.ignored, _, _, ?_, .ignored hignored⟩
    rw [searchMember_eq]
    dsimp only
    rw [ignored_settings, if_pos hignored]
    exact .throw _
  by_cases hseveral : 1 < (c.origins f.name).length
  · refine ⟨.rejected, _, _, ?_, .several (by simpa using hignored) hseveral⟩
    rw [searchMember_eq]
    dsimp only
    rw [ignored_settings, origins_settings, if_neg hignored, if_pos hseveral]
    exact .throw _
  have hheeds : c.Heeds f.name := ⟨by simpa using hignored, by omega⟩
  cases hconstant : c.constant? d (c.origin? f.name) f.type with
  | some v => exact hheeds.ends_constant i hconstant
  | none => exact hheeds.ends_read i hconstant

/-- The fate of a member and the notes of its search are one of these. -/
theorem comes_fateOf (i : Nat) (f : RecordMap.Field) : ∃ fate fs j,
    c.fateOf σ d i f = (fate, { findings := fs, journal := j }) ∧ c.Comes σ d i f fate fs j := by
  obtain ⟨fate, fs, j, hends, hcomes⟩ := ends_searchMember (σ := σ) (c := c) (d := d) i f
  refine ⟨fate, fs, j, ?_, hcomes⟩
  have hrun := hends {}
  rw [Journal.empty_append] at hrun
  unfold fateOf
  rw [hrun]
  cases fate <;> rfl

theorem comes_of_fateOf {i : Nat} {f : RecordMap.Field} {fate : Fate}
    (h : (c.fateOf σ d i f).1 = fate) : ∃ fs j,
      (c.fateOf σ d i f).2 = { findings := fs, journal := j } ∧ c.Comes σ d i f fate fs j := by
  obtain ⟨fate', fs, j, hfate, hcomes⟩ := comes_fateOf (σ := σ) (c := c) (d := d) i f
  rw [hfate] at h ⊢
  cases h
  exact ⟨fs, j, rfl, hcomes⟩

/-- Only a member that is to be ignored is. -/
theorem ignored_iff {i : Nat} {f : RecordMap.Field} :
    (c.fateOf σ d i f).1 = .ignored ↔ c.ignores f.name = true := by
  obtain ⟨fate, fs, j, hfate, hcomes⟩ := comes_fateOf (σ := σ) (c := c) (d := d) i f
  rw [hfate]
  cases hcomes with
  | ignored unheeded => simp [unheeded]
  | several heeded several => simp [heeded]
  | constant heeds first fits => simp [heeds.heeded]
  | read heeds unset source spares guards => simp [heeds.heeded]
  | excluded heeds lacking => simp [heeds.heeded]
  | rejected heeds before rejects => simp [heeds.heeded]

/-! ## §5. Plans -/

/-- The fate of a planned member is a plan for it. -/
theorem plans_of_fateOf {declaration : Nat} {f : RecordMap.Field} {plan : MemberPlan}
    (h : (c.fateOf σ d declaration f).1 = .planned plan) : c.Plans σ d declaration f plan := by
  obtain ⟨fs, j, -, hcomes⟩ := comes_of_fateOf h
  cases hcomes with
  | constant heeds first fits => exact ⟨rfl, rfl, rfl, .constant first (fits_of_fitting fits)⟩
  | read heeds unset source spares guards =>
    exact ⟨rfl, rfl, rfl, .read (sourced_of_source? source) guards.guarded⟩

theorem leads_namedPath? {p : Path} (h : namedPath? σ c d member = some p) :
    p.Leads σ c.source := by
  obtain ⟨⟨_, f⟩, _, hp⟩ := Option.bind_eq_some_iff.mp h
  exact Path.leads_ofMember? hp

/-- **The path of a plan leads** from the source record. -/
theorem Sourced.leads {origin : Option Origin} {p : Path}
    {conversion : Conversion} (h : c.Sourced σ d member type origin (.path p) conversion) :
    p.Leads σ c.source := by
  cases h with
  | path parsed _ => exact Path.leads_parse? parsed
  | nested parsed _ => exact Path.leads_parse? parsed
  | automatic search _ =>
    rcases search with hnamed | hflat
    · exact leads_namedPath? hnamed
    · exact Path.leads_flatten? hflat

/-- **The conversion of a plan joins** its source to the member. -/
theorem Sourced.joins {P : Converter → Prop} {origin : Option Origin} {a : Accessor}
    {conversion : Conversion} (hP : (c.scope d).Satisfies P)
    (h : c.Sourced σ d member type origin a conversion) : conversion.Joins P a.type type := by
  cases h with
  | path _ found => exact Scope.joins_resolve hP found
  | provider found => exact Scope.joins_resolve hP found
  | nested _ found => exact Scope.joins_nesting found
  | automatic _ found => exact Scope.joins_resolve hP found

end Config

end RecordMap
