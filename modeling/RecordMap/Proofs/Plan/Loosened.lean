import RecordMap.Proofs.Path.Flattened
import RecordMap.Proofs.Plan.Fitting
import RecordMap.Proofs.Plan.Required

/-!
# Looser matchers

The built-in matchers form a ladder: names that are equal are equal up to case, and names that
are equal up to case are equal up to case and underscores (`Matcher.exact_within_ignoreCase`,
`Matcher.ignoreCase_within_flexible`).

A looser matcher may give a member another source than before, since an earlier member of the
source may match now.  It takes the source away in one case only: that earlier member is *hidden*
behind one of the very same name that cannot be read (`Config.NamesakeHidden`), and the search,
which looks members up by their names, comes upon the latter.  Where names are distinct, nothing
is hidden, and the members left out for want of a source only become fewer
(`Config.loosening_keeps_sources`).
-/

namespace RecordMap

/-! ## §1. The ladder of matchers -/

namespace Matcher

/-- **A matcher within another**: the names that it matches, the other one matches too. -/
def Within (m m' : Matcher) : Prop :=
  ∀ destination source : String,
    m.accepts destination source = true → m'.accepts destination source = true

theorem exact_within_ignoreCase : exact.Within ignoreCase := by
  intro destination source h
  have hname : destination = source := by simpa [accepts] using h
  simp [accepts, hname]

/-- An underscore has no case, and is not the lower case of anything else. -/
theorem toLower_eq_underscore_iff (c : Char) : c.toLower = '_' ↔ c = '_' := by
  unfold Char.toLower
  split
  · rename_i hupper
    obtain ⟨hlow, hhigh⟩ := hupper
    rw [ge_iff_le, UInt32.le_iff_toNat_le] at hlow
    rw [UInt32.le_iff_toNat_le] at hhigh
    constructor
    · intro h
      have hval := congrArg (fun d : Char => d.val.toNat) h
      simp [UInt32.toNat_add] at hval hlow hhigh
      omega
    · intro h
      subst h
      simp at hhigh
  · rfl

/-- Underscores can be taken out before or after the case is folded. -/
theorem foldName_eq (name : String) : foldName name = (foldCase name).filter (· != '_') := by
  unfold foldName foldCase
  rw [List.filter_map]
  congr 1
  apply List.filter_congr
  intro c _
  rw [Bool.eq_iff_iff]
  simp [toLower_eq_underscore_iff]

theorem ignoreCase_within_flexible : ignoreCase.Within flexible := by
  intro destination source h
  have hcase : foldCase destination = foldCase source := by simpa [accepts] using h
  simp [accepts, foldName_eq, hcase]

end Matcher

namespace Config

variable {σ : Schema} {c c' : Config} {d d' : Defaults} {member : String}

/-! ## §2. Namesakes -/

/-- **The first namesake** of a member: the first readable member of the source with a matching
name, at its position. -/
structure FirstNamesake (σ : Schema) (c : Config) (d : Defaults) (member : String) (j : Nat)
    (g : RecordMap.Field) : Prop where
  declared : (σ.fields c.source)[j]? = some g
  readable : g.readable = true
  accepted : (c.nameMatcher d).accepts member g.name = true
  first : ∀ i f, i < j → (σ.fields c.source)[i]? = some f → f.readable = true →
    ¬ (c.nameMatcher d).accepts member f.name = true

/-- There are no two first ones. -/
theorem FirstNamesake.unique {i j : Nat} {f g : RecordMap.Field}
    (hf : c.FirstNamesake σ d member i f) (hg : c.FirstNamesake σ d member j g) :
    i = j ∧ f = g := by
  have hij : i = j := by
    apply Nat.le_antisymm
    · by_contra hlt
      exact hf.first j g (by omega) hg.declared hg.readable hg.accepted
    · by_contra hlt
      exact hg.first i f (by omega) hf.declared hf.readable hf.accepted
  subst hij
  have hfg := hf.declared.symm.trans hg.declared
  exact ⟨rfl, Option.some.inj hfg⟩

/-- The search by name starts from the first namesake. -/
theorem firstNamesake_of_find? {j : Nat} {g : RecordMap.Field}
    (h : (Path.readable σ c.source).find?
      (fun x => (c.nameMatcher d).accepts member x.2.name) = some (j, g)) :
    c.FirstNamesake σ d member j g := by
  obtain ⟨hdeclared, hreadable⟩ := Path.mem_readable.mp (List.mem_of_find?_eq_some h)
  obtain ⟨haccepted, before, after, hsplit, hbefore⟩ := List.find?_eq_some_iff_append.mp h
  refine ⟨hdeclared, hreadable, haccepted, ?_⟩
  intro i f hlt hi hf hearlier
  have hmem : (i, f) ∈ before ++ (j, g) :: after := by
    rw [← hsplit]
    exact Path.mem_readable.mpr ⟨hi, hf⟩
  rcases List.mem_append.mp hmem with hbef | hmem
  · have hrefused := hbefore (i, f) hbef
    simp [hearlier] at hrefused
  · rcases List.mem_cons.mp hmem with hsame | haft
    · cases hsame
      omega
    · -- Members are listed in the order of their positions.
      have hsorted := Path.sorted_readable (σ := σ) c.source
      rw [hsplit] at hsorted
      have htail := (List.pairwise_append.mp hsorted).2.1
      have hpos : j < i := (List.pairwise_cons.mp htail).1 (i, f) haft
      omega

/-- **The namesake is hidden**: a member that has the very same name and cannot be read comes
before it. -/
def NamesakeHidden (σ : Schema) (c : Config) (d : Defaults) (member : String) : Prop :=
  ∃ j g, c.FirstNamesake σ d member j g ∧
    ∃ i f, i < j ∧ (σ.fields c.source)[i]? = some f ∧ f.name = g.name ∧ f.readable = false

/-- With distinct names no namesake is hidden. -/
theorem not_namesakeHidden (hnames : ((σ.fields c.source).map (·.name)).Nodup) :
    ¬ c.NamesakeHidden σ d member := by
  intro h
  obtain ⟨j, g, hg, i, f, hlt, hi, hname, -⟩ := h
  have hpos := Path.position_of_name hnames hi hg.declared hname
  omega

/-- The first member of a name. -/
theorem find?_zipIdx {fs : List RecordMap.Field} {name : String} {i : Nat} {f : RecordMap.Field}
    (h : fs.zipIdx.find? (fun x => x.1.name == name) = some (f, i)) :
    fs[i]? = some f ∧ f.name = name ∧ ∀ k g, k < i → fs[k]? = some g → g.name ≠ name := by
  obtain ⟨hname, n, hn, hget, hfirst⟩ := List.find?_eq_some_iff_getElem.mp h
  rw [List.getElem_zipIdx] at hget
  simp only [Nat.zero_add, Prod.mk.injEq] at hget
  obtain ⟨hf, rfl⟩ := hget
  refine ⟨?_, by simpa using hname, ?_⟩
  · rw [← hf]
    exact List.getElem?_eq_getElem _
  · intro k g hk hg heq
    have hother := hfirst k hk
    obtain ⟨hlt, rfl⟩ := List.getElem?_eq_some_iff.mp hg
    simp [heq] at hother

/-- A namesake is hidden just if the first member of its name cannot be read. -/
theorem FirstNamesake.hidden_iff {i j : Nat} {f g : RecordMap.Field}
    (h : c.FirstNamesake σ d member j g)
    (hfound : (σ.fields c.source).zipIdx.find? (fun x => x.1.name == g.name) = some (f, i)) :
    c.NamesakeHidden σ d member ↔ f.readable = false := by
  obtain ⟨hi, hname, hfirst⟩ := find?_zipIdx hfound
  have hle : i ≤ j := by
    by_contra hlt
    exact hfirst j g (by omega) h.declared rfl
  constructor
  · intro hhidden
    obtain ⟨j', g', hg', k, e, hlt, hk, hsame, -⟩ := hhidden
    obtain ⟨rfl, rfl⟩ := hg'.unique h
    by_contra hreadable
    rw [Bool.not_eq_false] at hreadable
    -- The member found is the namesake itself, and none of its name comes before it.
    have hij : i = j' := by
      by_contra hne
      apply h.first i f (by omega) hi hreadable
      rw [hname]
      exact h.accepted
    exact hfirst k e (by omega) hk hsame
  · intro hreadable
    have hne : i ≠ j := by
      intro heq
      subst heq
      have hfg := Option.some.inj (hi.symm.trans h.declared)
      rw [hfg, h.readable] at hreadable
      cases hreadable
    exact ⟨j, g, h, i, f, by omega, hi, hname, hreadable⟩

/-- The path of a namesake is found under its name unless it is hidden. -/
theorem FirstNamesake.isSome_ofMember?_iff {j : Nat} {g : RecordMap.Field}
    (h : c.FirstNamesake σ d member j g) :
    (Path.ofMember? σ c.source g.name).isSome = true ↔ ¬ c.NamesakeHidden σ d member := by
  unfold Path.ofMember?
  cases hfound : (σ.fields c.source).zipIdx.find? (fun x => x.1.name == g.name) with
  | none =>
    have hmem : (g, j) ∈ (σ.fields c.source).zipIdx :=
      List.mem_zipIdx_iff_getElem?.mpr h.declared
    have hnone := List.find?_eq_none.mp hfound (g, j) hmem
    simp at hnone
  | some x =>
    rw [h.hidden_iff hfound]
    cases hreadable : x.1.readable <;> simp [hreadable]

/-- **The search by name** finds a path just if there is a namesake that is not hidden. -/
theorem isSome_namedPath?_iff : (namedPath? σ c d member).isSome = true ↔
    c.hasNamesake σ d member = true ∧ ¬ c.NamesakeHidden σ d member := by
  constructor
  · intro h
    obtain ⟨p, hp⟩ := Option.isSome_iff_exists.mp h
    obtain ⟨⟨j, g⟩, hfind, hpath⟩ := Option.bind_eq_some_iff.mp hp
    have hg : c.FirstNamesake σ d member j g := firstNamesake_of_find? hfind
    constructor
    · unfold hasNamesake
      rw [List.any_eq_true]
      exact ⟨g, List.mem_of_getElem? hg.declared, by simp [hg.readable, hg.accepted]⟩
    · apply hg.isSome_ofMember?_iff.mp
      simp [hpath]
  · intro h
    obtain ⟨hnamesake, hvisible⟩ := h
    obtain ⟨f, hf, haccepted⟩ := List.any_eq_true.mp hnamesake
    obtain ⟨i, hi⟩ := List.mem_iff_getElem?.mp hf
    simp only [Bool.and_eq_true] at haccepted
    unfold namedPath?
    cases hfind : (Path.readable σ c.source).find?
        (fun x => (c.nameMatcher d).accepts member x.2.name) with
    | none =>
      have hmem : (i, f) ∈ Path.readable σ c.source := Path.mem_readable.mpr ⟨hi, haccepted.1⟩
      exact absurd haccepted.2 (List.find?_eq_none.mp hfind (i, f) hmem)
    | some x => exact (firstNamesake_of_find? hfind).isSome_ofMember?_iff.mpr hvisible

/-! ## §3. Automatic sources -/

/-- **The automatic source** of a member: the source member of a matching name, else a flattened
path. -/
def automatic? (σ : Schema) (c : Config) (d : Defaults) (member : String) : Option Path :=
  (namedPath? σ c d member).or (Path.flatten? σ c.source member (c.nameMatcher d))

/-- There is one just if a namesake is not hidden, or a flattened path matches. -/
theorem isSome_automatic?_iff : (c.automatic? σ d member).isSome = true ↔
    (c.hasNamesake σ d member = true ∧ ¬ c.NamesakeHidden σ d member) ∨
      c.hasFlattened σ d member = true := by
  unfold automatic?
  rw [Option.isSome_or, Bool.or_eq_true, isSome_namedPath?_iff, isSome_flatten?]

/-- **Configurations that differ in the matcher alone**, each with its defaults. -/
structure Rematched (c : Config) (d : Defaults) (c' : Config) (d' : Defaults) : Prop where
  config : c' = { c with matcher := c'.matcher }
  defaults : d' = { d with matcher := d'.matcher }

namespace Rematched

variable (h : c.Rematched d c' d')

include h

theorem source : c'.source = c.source := by rw [h.config]

theorem targets_eq : c'.targets σ = c.targets σ := congrArg (·.targets σ) h.config

theorem ignores_eq (name : String) : c'.ignores name = c.ignores name :=
  congrArg (·.ignores name) h.config

theorem origins_eq (name : String) : c'.origins name = c.origins name :=
  congrArg (·.origins name) h.config

theorem origin?_eq (name : String) : c'.origin? name = c.origin? name :=
  congrArg (·.origin? name) h.config

theorem heeds_iff (name : String) : c'.Heeds name ↔ c.Heeds name := by
  constructor
  · intro hheeds
    exact ⟨(h.ignores_eq name).symm.trans hheeds.heeded, h.origins_eq name ▸ hheeds.single⟩
  · intro hheeds
    exact ⟨(h.ignores_eq name).trans hheeds.heeded, h.origins_eq name ▸ hheeds.single⟩

theorem constant?_eq (origin : Option Origin) (type : Ty) :
    c'.constant? d' origin type = c.constant? d origin type := by
  have hconstants : c'.constants = c.constants := by rw [h.config]
  have hdefaults : d'.constants = d.constants := by rw [h.defaults]
  unfold constant?
  rw [hconstants, hdefaults]

variable (looser : (c.nameMatcher d).Within (c'.nameMatcher d'))

include looser

/-- A namesake is still one. -/
theorem hasNamesake (hnamesake : c.hasNamesake σ d member = true) :
    c'.hasNamesake σ d' member = true := by
  obtain ⟨g, hg, haccepted⟩ := List.any_eq_true.mp hnamesake
  simp only [Bool.and_eq_true] at haccepted
  unfold Config.hasNamesake
  rw [h.source, List.any_eq_true]
  exact ⟨g, hg, by simp [haccepted.1, looser _ _ haccepted.2]⟩

/-- A flattened path is still one: the candidates do not depend on the matcher. -/
theorem hasFlattened (hflattened : c.hasFlattened σ d member = true) :
    c'.hasFlattened σ d' member = true := by
  obtain ⟨p, hp, haccepted⟩ := List.any_eq_true.mp hflattened
  unfold Config.hasFlattened
  rw [h.source, List.any_eq_true]
  exact ⟨p, hp, looser _ _ haccepted⟩

/-- **An automatic source is kept** unless the namesake is hidden. -/
theorem automatic (member : String) (hsource : (c.automatic? σ d member).isSome = true) :
    (c'.automatic? σ d' member).isSome = true ∨ c'.NamesakeHidden σ d' member := by
  by_cases hhidden : c'.NamesakeHidden σ d' member
  · exact .inr hhidden
  · left
    rw [isSome_automatic?_iff] at hsource ⊢
    rcases hsource with ⟨hnamesake, -⟩ | hflattened
    · exact .inl ⟨h.hasNamesake looser hnamesake, hhidden⟩
    · exact .inr (h.hasFlattened looser hflattened)

end Rematched

/-! ## §4. Members left out -/

theorem lacking_iff {f : RecordMap.Field} : c.Lacking σ d f ↔
    c.constant? d (c.origin? f.name) f.type = none ∧ c.origin? f.name = none ∧
      c.automatic? σ d f.name = none := by
  unfold automatic?
  rw [Option.or_eq_none_iff]
  constructor
  · intro h
    have horigin := h.origin?_eq_none
    obtain ⟨hconstant, -, hnamed, hflat⟩ := h
    exact ⟨hconstant, horigin, hnamed, hflat⟩
  · intro h
    obtain ⟨hconstant, horigin, hnamed, hflat⟩ := h
    refine ⟨hconstant, ?_, hnamed, hflat⟩
    intro o ho
    rw [horigin] at ho
    cases ho

/-- **The members left out for want of a source**: those that are heeded, and have neither a
constant nor an explicit source nor an automatic one. -/
theorem excluded_iff {i : Nat} {f : RecordMap.Field} : (c.fateOf σ d i f).1 = .excluded ↔
    c.Heeds f.name ∧ c.constant? d (c.origin? f.name) f.type = none ∧
      c.origin? f.name = none ∧ c.automatic? σ d f.name = none := by
  rw [← lacking_iff]
  exact excluded_iff_lacking

/-- **Sources are kept** from one configuration to another that differs in its matcher. -/
structure KeepsSources (σ : Schema) (c : Config) (d : Defaults) (c' : Config) (d' : Defaults) :
    Prop where
  /-- A member with an automatic source has one still, unless its namesake is hidden now. -/
  sources : ∀ member, (c.automatic? σ d member).isSome = true →
    (c'.automatic? σ d' member).isSome = true ∨ c'.NamesakeHidden σ d' member
  /-- No other member is left out that was not left out before. -/
  excluded : ∀ i f, (c'.fateOf σ d' i f).1 = .excluded →
    (c.fateOf σ d i f).1 = .excluded ∨ c'.NamesakeHidden σ d' f.name
  /-- If both resolve, what was planned is planned still. -/
  planned : ∀ session session' spec spec', (c.resolve σ d session).result = .ok spec →
    (c'.resolve σ d' session').result = .ok spec' → ∀ p ∈ spec.members,
      (∃ p' ∈ spec'.members, p'.declaration = p.declaration) ∨ c'.NamesakeHidden σ d' p.member
  /-- If both resolve and nothing is hidden, no more members are counted as left out. -/
  counted : (∀ member, ¬ c'.NamesakeHidden σ d' member) → ∀ session spec spec',
    (c.resolve σ d session).result = .ok spec → (c'.resolve σ d' session).result = .ok spec' →
      (c'.resolve σ d' session).session.stats.membersExcluded ≤
        (c.resolve σ d session).session.stats.membersExcluded

namespace Rematched

variable (h : c.Rematched d c' d') (looser : (c.nameMatcher d).Within (c'.nameMatcher d'))

include h looser

theorem excluded {i : Nat} {f : RecordMap.Field} (hfate : (c'.fateOf σ d' i f).1 = .excluded) :
    (c.fateOf σ d i f).1 = .excluded ∨ c'.NamesakeHidden σ d' f.name := by
  obtain ⟨hheeds, hconstant, horigin, hnone⟩ := excluded_iff.mp hfate
  rw [h.heeds_iff] at hheeds
  rw [h.origin?_eq, h.constant?_eq] at hconstant
  rw [h.origin?_eq] at horigin
  cases hbefore : c.automatic? σ d f.name with
  | none => exact .inl (excluded_iff.mpr ⟨hheeds, hconstant, horigin, hbefore⟩)
  | some p =>
    have hkept := h.automatic (σ := σ) looser f.name (by rw [hbefore]; rfl)
    rw [hnone] at hkept
    exact .inr (by simpa using hkept)

theorem planned {session session' : Session} {spec spec' : Specification}
    (hok : (c.resolve σ d session).result = .ok spec)
    (hok' : (c'.resolve σ d' session').result = .ok spec') {p : MemberPlan}
    (hp : p ∈ spec.members) :
    (∃ p' ∈ spec'.members, p'.declaration = p.declaration) ∨ c'.NamesakeHidden σ d' p.member := by
  obtain ⟨⟨f, i⟩, ht, hfate⟩ := (mem_members_iff hok).mp hp
  obtain ⟨hmember, -, hdeclaration, -⟩ := plans_of_fateOf hfate
  obtain ⟨hi, hwritable⟩ := mem_targets.mp (h.targets_eq (σ := σ) ▸ ht)
  rw [hmember, hdeclaration]
  by_contra hlost
  rw [not_or] at hlost
  have hunplanned := (unplanned_iff hok' hi).mp fun m hm hplace => hlost.1 ⟨m, hm, hplace⟩
  rcases hunplanned with hsealed | hignored | hexcluded
  · rw [hwritable] at hsealed
    cases hsealed
  · rw [ignored_iff, h.ignores_eq, ← ignored_iff] at hignored
    rw [hignored] at hfate
    cases hfate
  · rcases h.excluded looser hexcluded with hbefore | hhidden
    · rw [hbefore] at hfate
      cases hfate
    · exact hlost.2 hhidden

theorem tally_excluded_le (hvisible : ∀ member, ¬ c'.NamesakeHidden σ d' member) :
    tally (some .excluded) (c'.verdicts σ d') ≤ tally (some .excluded) (c.verdicts σ d) := by
  unfold tally
  rw [verdicts_eq, verdicts_eq, h.targets_eq, List.countP_map, List.countP_map]
  apply List.countP_mono_left
  intro t _ ht
  simp only [Function.comp_apply, decide_eq_true_eq, Fate.treatment?_eq_excluded_iff] at ht ⊢
  rcases h.excluded looser ht with hbefore | hhidden
  · exact hbefore
  · exact absurd hhidden (hvisible t.1.name)

/-- **A looser matcher keeps sources.** -/
theorem keepsSources : c.KeepsSources σ d c' d' := by
  constructor
  case sources =>
    intro member hsource
    exact h.automatic looser member hsource
  case excluded =>
    intro i f hfate
    exact h.excluded looser hfate
  case planned =>
    intro session session' spec spec' hok hok' p hp
    exact h.planned looser hok hok' hp
  case counted =>
    intro hvisible session spec spec' hok hok'
    rw [session_of_ok hok, session_of_ok hok', (tallied_ledger _ session).excluded,
      (tallied_ledger _ session).excluded]
    have := h.tally_excluded_le (σ := σ) looser hvisible
    omega

end Rematched

/-! ## §5. Loosening the matcher -/

/-- **Loosening the matcher loses no source.**

Matchers get looser from `exact` to `ignoreCase` to `flexible`.  A member has an automatic source
just if it has a namesake that is not hidden, or a flattened path matches its name.  Whatever the
source record, the configuration and the defaults, a looser matcher in their place keeps the
automatic source of every member whose namesake it does not hide.  So no other member is newly
left out, and where names are distinct, none is. -/
theorem loosening_keeps_sources (σ : Schema) :
    Matcher.exact.Within .ignoreCase ∧ Matcher.ignoreCase.Within .flexible ∧
    (∀ c d member, (automatic? σ c d member).isSome = true ↔
      (c.hasNamesake σ d member = true ∧ ¬ c.NamesakeHidden σ d member) ∨
        c.hasFlattened σ d member = true) ∧
    (∀ c d c' d', Rematched c d c' d' → (c.nameMatcher d).Within (c'.nameMatcher d') →
      c.KeepsSources σ d c' d') ∧
    ∀ c d member, ((σ.fields c.source).map (·.name)).Nodup → ¬ NamesakeHidden σ c d member := by
  refine ⟨Matcher.exact_within_ignoreCase, Matcher.ignoreCase_within_flexible, ?_, ?_, ?_⟩
  · intro c d member
    exact isSome_automatic?_iff
  · intro c d c' d' h looser
    exact h.keepsSources looser
  · intro c d member hnames
    exact not_namesakeHidden hnames

/-- Orders of customers, the rows they make, and tags that are shown. -/
def orderSchema : Schema where
  naming := ⟨"Text", "Option", "List"⟩
  record
    | "Order" => { fields := [
        { name := "orderId", type := .prim .text },
        { name := "customer", type := .record "Customer" }] }
    | "Customer" => { fields := [{ name := "Name", type := .prim .text }] }
    | "Row" => { fields := [
        { name := "order_id", type := .prim .text },
        { name := "customer_name", type := .prim .text }] }
    | "Tag" => { fields := [
        { name := "Label", type := .prim .text, readable := false },
        { name := "Label", type := .prim .text }, { name := "label", type := .prim .text }] }
    | "Shown" => { fields := [{ name := "label", type := .prim .text }] }
    | _ => {}
  enum _ := { first := { name := "", underlying := 0 } }
  rank
    | "Order" => 1
    | _ => 0
  contains_lt := by
    intro r r' h
    obtain ⟨f, hf, ht⟩ := h
    split at hf <;> simp at hf
    · rcases hf with rfl | rfl
      · cases ht
      · cases ht
        decide
    · simp [hf] at ht
    · rcases hf with rfl | rfl <;> cases ht
    · rcases hf with rfl | rfl | rfl <;> cases ht
    · simp [hf] at ht

/-- Rows of orders under a matcher. -/
def rowUnder (m : Matcher) : Config where
  source := "Order"
  destination := "Row"
  matcher := some m

/-- A row gets its members one after another as the matcher is loosened, and keeps them. -/
theorem loosening_keeps_sources_row :
    ((orderSchema.fields "Order").map (·.name)).Nodup ∧
      (rowUnder .exact).automatic? orderSchema {} "customer_name" = none ∧
      ((rowUnder .ignoreCase).automatic? orderSchema {} "customer_name").isSome = true ∧
      (rowUnder .ignoreCase).automatic? orderSchema {} "order_id" = none ∧
      ((rowUnder .flexible).automatic? orderSchema {} "customer_name").isSome = true ∧
      ((rowUnder .flexible).automatic? orderSchema {} "order_id").isSome = true := by
  have hnames : ((orderSchema.fields "Order").map (·.name)).Nodup := by decide
  have hbefore : ((rowUnder .ignoreCase).automatic? orderSchema {} "customer_name").isSome = true := by
    decide +kernel
  obtain ⟨-, hladder, -, hkeeps, hvisible⟩ := loosening_keeps_sources orderSchema
  have hrows : (rowUnder .ignoreCase).Rematched {} (rowUnder .flexible) {} := ⟨rfl, rfl⟩
  have hafter : ((rowUnder .flexible).automatic? orderSchema {} "customer_name").isSome = true := by
    rcases (hkeeps _ _ _ _ hrows hladder).sources "customer_name" hbefore with hkept | hhidden
    · exact hkept
    · exact absurd hhidden (hvisible (rowUnder .flexible) {} "customer_name" hnames)
  exact ⟨hnames, by decide +kernel, hbefore, by decide +kernel, hafter, by decide +kernel⟩

/-- Tags as they are shown, under a matcher. -/
def shownUnder (m : Matcher) : Config where
  source := "Tag"
  destination := "Shown"
  matcher := some m

/-- **A source lost by loosening.**  Under `exact` the label is read from the member of the very
name.  Under `ignoreCase` an earlier label matches, but it is hidden behind one that cannot be
read; so the member is left out, and both mappings resolve. -/
theorem loosening_loses_hidden :
    ((shownUnder .exact).automatic? orderSchema {} "label").isSome = true ∧
      (shownUnder .ignoreCase).automatic? orderSchema {} "label" = none ∧
      (shownUnder .ignoreCase).verdicts orderSchema {} = [(.excluded, {})] ∧
      (∃ spec, ((shownUnder .exact).resolve orderSchema {} { pair := "" }).result = .ok spec ∧
        spec.memberNames = ["label"]) ∧
      ∃ spec, ((shownUnder .ignoreCase).resolve orderSchema {} { pair := "" }).result = .ok spec ∧
        spec.memberNames = [] := by
  refine ⟨by decide +kernel, by decide +kernel, ?_, ?_, ?_⟩
  · with_unfolding_all rfl
  · exact ⟨_, by with_unfolding_all rfl, by with_unfolding_all rfl⟩
  · exact ⟨_, by with_unfolding_all rfl, by with_unfolding_all rfl⟩

end Config

end RecordMap
