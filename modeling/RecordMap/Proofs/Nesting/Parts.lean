import Mathlib.Logic.Relation
import RecordMap.Proofs.Conversion.Joins
import RecordMap.Proofs.Nesting.Confined
import RecordMap.Proofs.Plan.Structure

/-!
# Parts of values

The parts of a value are the members of a record, the content of an option and the
items of a sequence.  A value *within* another is a part of it, or a part of a part.
It has less depth, so values each within the next are at most as many as the last one
is deep (`Value.length_add_depth_le`).

Reading along a path leads to a value within the record that is read, and no
conversion that a mapping uses goes out of the value it is run on.  So what a mapping
hands on to nested mappers lies within its source, unless a provider makes it up
(`Specification.Hands.within`).
-/

namespace RecordMap

namespace Value

/-! ## §1. Parts and depth -/

/-- **A part of a value**, one level down. -/
inductive Part : Value → Value → Prop where
  | member {name : String} {members : List Value} {w : Value} (mem : w ∈ members) :
      Part w (record name members)
  | content (w : Value) : Part w (present w)
  | item {t : Ty} {items : List Value} {w : Value} (mem : w ∈ items) : Part w (seq t items)

/-- **A value within another**: a part of it at any level. -/
abbrev Within : Value → Value → Prop := Relation.TransGen Part

/-- A value within another, or that value. -/
abbrev WithinOrSame : Value → Value → Prop := Relation.ReflTransGen Part

mutual

/-- **The depth of a value**: how many levels of parts there are in it. -/
def depth : Value → Nat
  | record _ members => depthOver members
  | present v => v.depth + 1
  | seq _ items => depthOver items
  | _ => 0

/-- The depth of a value with the given parts. -/
def depthOver : List Value → Nat
  | [] => 0
  | v :: rest => max (v.depth + 1) (depthOver rest)

end

variable {v w source : Value}

theorem depth_lt_depthOver {parts : List Value} (h : w ∈ parts) : w.depth < depthOver parts := by
  induction parts with
  | nil => cases h
  | cons v rest ih =>
    rw [depthOver]
    rcases List.mem_cons.mp h with rfl | hrest
    · omega
    · have := ih hrest
      omega

theorem Part.depth_lt (h : w.Part v) : w.depth < v.depth := by
  cases h with
  | member mem =>
    rw [depth]
    exact depth_lt_depthOver mem
  | content _ =>
    rw [depth]
    omega
  | item mem =>
    rw [depth]
    exact depth_lt_depthOver mem

/-- **A value within another** has less depth. -/
theorem Within.depth_lt (h : w.Within v) : w.depth < v.depth := by
  induction h with
  | single hpart => exact hpart.depth_lt
  | tail _ hpart ih =>
    have := hpart.depth_lt
    omega

/-- **Values each within the next** are no more than the last of them is deep. -/
theorem length_add_depth_le {outer : List Value} (h : (v :: outer).IsChain Within)
    (hlast : outer.getLast? = some source) : outer.length + v.depth ≤ source.depth := by
  induction outer generalizing v with
  | nil => cases hlast
  | cons w rest ih =>
    obtain ⟨hwithin, hrest⟩ := List.isChain_cons_cons.mp h
    have hlt := hwithin.depth_lt
    rw [List.length_cons]
    cases rest with
    | nil =>
      rw [List.getLast?_singleton] at hlast
      cases hlast
      rw [List.length_nil]
      omega
    | cons u rest =>
      rw [List.getLast?_cons_cons] at hlast
      have := ih hrest hlast
      omega

end Value

/-! ## §2. Paths -/

variable {σ : Schema} {v w : Value}

theorem Value.part_of_member? {r : String} {i : Nat} (h : v.member? σ r i = some w) : w.Part v := by
  unfold member? at h
  obtain ⟨members, hmembers, hread⟩ := Option.bind_eq_some_iff.mp h
  obtain ⟨field, _, hfield⟩ := Option.bind_eq_some_iff.mp hread
  clear h hread
  cases v <;> simp only [members?, reduceCtorEq] at hmembers
  split at hmembers
  · cases hmembers
    split at hfield
    · exact .member (List.mem_of_getElem? hfield)
    · cases hfield
  · cases hmembers

theorem Value.part_of_content? {t : Ty} (h : v.content? t = some w) : w.Part v := by
  cases v <;> simp only [content?, reduceCtorEq] at h
  obtain ⟨_, rfl⟩ := as?_eq_some_iff.mp h
  exact .content _

theorem Value.part_of_items? {t : Ty} {items : List Value} (h : v.items? t = some items)
    (hw : w ∈ items) : w.Part v := by
  cases v <;> simp only [items?, reduceCtorEq] at h
  split at h
  · cases h
    exact .item hw
  · cases h

namespace Path

theorem Step.withinOrSame_of_read? {s : Step} (h : s.read? σ v = some w) : w.WithinOrSame v := by
  unfold read? at h
  split at h
  -- The content of an option, and a member of it.
  · obtain ⟨inner, hinner, hmember⟩ := Option.bind_eq_some_iff.mp h
    have hcontent := Value.part_of_content? hinner
    exact (Relation.ReflTransGen.single (Value.part_of_member? hmember)).tail hcontent
  · exact .single (Value.part_of_member? h)

theorem withinOrSame_of_readSteps? {steps : List Step} (h : readSteps? σ steps v = some w) :
    w.WithinOrSame v := by
  induction steps generalizing v with
  | nil =>
    cases h
    exact .refl
  | cons s rest ih =>
    obtain ⟨u, hu, hrest⟩ := Option.bind_eq_some_iff.mp h
    exact (ih hrest).trans (Step.withinOrSame_of_read? hu)

/-- **Reading along a path** leads to a value within. -/
theorem within_of_read? {p : Path} {r : String} (h : p.read? σ r v = some w) : w.Within v := by
  obtain ⟨u, hu, hsteps⟩ := Option.bind_eq_some_iff.mp h
  exact .tail' (withinOrSame_of_readSteps? hsteps) (Value.part_of_member? hu)

end Path

/-! ## §3. Conversions -/

/-- **A conversion hands on nothing else** than what it is run on, or what is within. -/
theorem Conversion.Hands.withinOrSame {P : Converter → Prop} {c : Conversion} {a b : Ty}
    (h : c.Hands v w) (hjoins : c.Joins P a b) : w.WithinOrSame v := by
  induction h generalizing a b with
  | nested p v => exact .refl
  | unwrap holds _ ih =>
    cases hjoins with
    | unwrap more => exact (ih more).tail (Value.part_of_content? holds)
  | wrap _ ih =>
    cases hjoins with
    | wrap more => exact ih more
  | wrapSource _ more _ =>
    -- A converter has nothing nested in it.
    cases hjoins with
    | wrapSource _ _ => cases more
  | elements lists mem _ ih =>
    cases hjoins with
    | elements more => exact (ih more).tail (Value.part_of_items? lists mem)

/-- Every conversion of a mapping that resolves fits between two types. -/
theorem Config.Resolved.joins {c : Config} {d : Defaults} {s : Specification}
    (h : c.Resolved σ d s) {plan : MemberPlan} (hplan : plan ∈ s.members) {a : Accessor}
    {conversion : Conversion} {sentinel : Option Value}
    (hread : plan.production = .read a conversion sentinel) :
    conversion.Joins (fun _ => True) a.type plan.type := by
  obtain ⟨find, hfind, hfound⟩ := (h.read hplan hread).1.searched
  exact hfind.joins (fun _ _ _ _ => trivial) hfound

/-! ## §4. Mappings -/

/-- No provider of the mapping feeds a nested mapper. -/
def Specification.NestsOnPaths (s : Specification) : Prop :=
  ∀ plan ∈ s.members, ∀ p conversion sentinel,
    plan.production = .read (.provider p) conversion sentinel → conversion.pairings = []

/-- **What a mapping hands on** lies within its source. -/
theorem Specification.Hands.within {c : Config} {d : Defaults} {s : Specification}
    {source : Value} {i : Nat} {p : Pairing} (h : s.Hands σ source i p w)
    (hresolved : c.Resolved σ d s) (hpaths : s.NestsOnPaths) : w.Within source := by
  obtain ⟨plan, hplan, _, a, conversion, sentinel, hread, hp, raw, hraw, hhands⟩ := h
  have hwithin := hhands.withinOrSame (hresolved.joins hplan hread)
  cases a with
  | path path => exact .trans_right hwithin (Path.within_of_read? hraw)
  | provider f =>
    rw [hpaths plan hplan f conversion sentinel hread] at hp
    cases hp

end RecordMap
