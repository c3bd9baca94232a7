import RecordMap.Plan.Resolve
import RecordMap.Proofs.Config.Slots

/-!
# What the search for a plan depends on

The search for the plan of a member looks at what is configured for that member, and at five
settings of the mapping as a whole: its profile, its converters, its constants and sentinels by
type, and its matcher.  Two configurations of the same records that are *alike* in those
(`Config.Alike`) find the same conversions, sources and sentinels, each for all members.  So a
member for which they say the same has the same fate, with the same notes
(`Config.Alike.fateOf_eq`).
-/

namespace RecordMap

/-! ## §1. Conversions -/

namespace Scope

variable {S S' : Scope}

/-- **Scopes with the same lookups** find the same conversions.  The recursion is that of the
search. -/
theorem resolve_congr (hconverter : S.converter? = S'.converter?)
    (hoperator : S.operator? = S'.operator?) (hprofile : S.profile = S'.profile) (a b : Ty) :
    S.resolve a b = S'.resolve a b := by
  have hcustom : S.custom? a b = S'.custom? a b := by
    unfold custom?
    rw [hconverter, hoperator]
  have hleaf : ∀ a b, S.leaf? a b = S'.leaf? a b := by
    intro a b
    unfold leaf?
    rw [hprofile]
  unfold resolve
  by_cases hsame : a = b
  · simp [hsame]
  · rw [if_neg hsame, if_neg hsame, hcustom]
    congr 1
    split
    · rw [resolve_congr hconverter hoperator hprofile]
    · rw [resolve_congr hconverter hoperator hprofile]
    · rw [resolve_congr hconverter hoperator hprofile]
    · rw [resolve_congr hconverter hoperator hprofile]
    · exact hleaf _ _
termination_by sizeOf a + sizeOf b

end Scope

/-! ## §2. Configurations that are alike -/

/-- The setting is one of the mapping as a whole that the search for a plan looks at. -/
def Config.Slot.isShared : Slot → Bool
  | converter _ _ | constantFor _ | sentinelFor _ | matcher | profile => true
  | member _ | factory | before | after | guards | shapes => false

namespace Config

variable {σ : Schema} {c c' : Config} {d : Defaults}

/-- **Configurations alike**: they are for the same records, and hold the same in every slot
that all members share. -/
structure Alike (c c' : Config) : Prop where
  source : c.source = c'.source
  destination : c.destination = c'.destination
  shared : ∀ slot : Slot, slot.isShared = true → c.SameAt c' slot

namespace Alike

variable (h : c.Alike c')

include h

theorem profile : c.profile = c'.profile := h.shared .profile rfl

theorem pairing_eq : c.pairing = c'.pairing := by
  unfold pairing
  rw [h.source, h.destination, h.profile]

theorem nameMatcher_eq : c.nameMatcher d = c'.nameMatcher d := by
  have hmatcher : c.matcher = c'.matcher := h.shared .matcher rfl
  unfold nameMatcher
  rw [hmatcher]

/-- They find the same conversions. -/
theorem resolve_eq : (c.scope d).resolve = (c'.scope d).resolve := by
  have hconverter : (c.scope d).converter? = (c'.scope d).converter? := by
    funext a b
    have hget : c.converters.get? a b = c'.converters.get? a b := h.shared (.converter a b) rfl
    unfold Scope.converter? scope
    rw [hget]
  funext a b
  exact Scope.resolve_congr hconverter rfl h.profile a b

theorem constant?_eq (origin : Option Origin) (type : Ty) :
    c.constant? d origin type = c'.constant? d origin type := by
  have hget : c.constants.get? type = c'.constants.get? type := h.shared (.constantFor type) rfl
  unfold constant?
  rw [hget]

theorem sentinel?_eq (explicit : Option MemberConfig) (type : Ty) :
    c.sentinel? d explicit type = c'.sentinel? d explicit type := by
  have hget : c.sentinels.get? type = c'.sentinels.get? type := h.shared (.sentinelFor type) rfl
  unfold sentinel?
  rw [hget]

/-- They fit values alike. -/
theorem fit_eq (member : String) (type : Ty) (v : Value) :
    c.fit σ d member type v = c'.fit σ d member type v := by
  unfold fit
  rw [h.resolve_eq]

theorem explicitPath_eq (member text : String) :
    c.explicitPath σ member text = c'.explicitPath σ member text := by
  unfold explicitPath
  rw [h.source]

theorem automaticPath_eq (member : String) :
    c.automaticPath σ d member = c'.automaticPath σ d member := by
  unfold automaticPath namedPath?
  rw [h.source, h.nameMatcher_eq]

/-- They find the same sources. -/
theorem readSource_eq (member : String) (type : Ty) (origin : Option Origin) :
    c.readSource σ d member type origin = c'.readSource σ d member type origin := by
  unfold readSource
  simp only [h.explicitPath_eq, h.automaticPath_eq, h.resolve_eq, h.profile]

/-- They produce members alike. -/
theorem readProduction_eq (explicit : Option MemberConfig) (member : String) (type : Ty)
    (accessor : Accessor) (conversion : Conversion) :
    c.readProduction σ d explicit member type accessor conversion =
      c'.readProduction σ d explicit member type accessor conversion := by
  unfold readProduction
  simp only [h.pairing_eq, h.sentinel?_eq, h.fit_eq]

/-! ## §3. Fates -/

/-- **The fate of a member** is the same, with the same notes, if they say the same about it. -/
theorem fateOf_eq {f : RecordMap.Field} (hmember : c.SameAt c' (.member f.name)) (i : Nat) :
    c.fateOf σ d i f = c'.fateOf σ d i f := by
  have hsearch : c.searchMember σ d i f = c'.searchMember σ d i f := by
    unfold searchMember
    simp only [hmember.member?, h.constant?_eq, h.fit_eq, h.readSource_eq, h.readProduction_eq]
  unfold fateOf
  rw [hsearch]

/-- With the same members, they have the same verdicts. -/
theorem verdicts_eq (hmembers : ∀ name, c.SameAt c' (.member name)) :
    c.verdicts σ d = c'.verdicts σ d := by
  unfold verdicts
  rw [h.destination]
  refine List.map_congr_left ?_
  intro t _
  exact h.fateOf_eq (hmembers t.1.name) t.2

/-- A member is a problem for both or for neither. -/
theorem problem?_eq : c.problem? σ = c'.problem? σ := by
  funext m
  unfold problem? isWritable
  rw [h.destination]

end Alike

end Config

end RecordMap
