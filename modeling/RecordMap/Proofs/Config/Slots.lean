import Mathlib.Data.List.Basic
import RecordMap.Config.Basic

/-!
# Slots of a configuration

Every setting is about one *slot*: a member of the destination, the converter of a type pair,
the constant or the sentinel of a type, or one of the parts a configuration has once
(`Config.Setting.slot`).  A setting changes its own slot and no other
(`Config.sameAt_apply_of_ne`), and what it makes of its slot depends on that slot alone
(`Config.SameAt.apply`).

So what a configuration holds in a slot is told by the settings on that slot, in their order
(`Config.sameAt_ofSettings`).  Settings on different slots may be exchanged; members then come
in another order of first mention, and nothing else is different (`Config.entries_perm`).
-/

namespace RecordMap

/-- What a setting is about. -/
inductive Config.Slot where
  | member (name : String)
  | converter (source target : Ty)
  | constantFor (t : Ty)
  | sentinelFor (t : Ty)
  | factory
  | before
  | after
  | guards
  | matcher
  | shapes
  | profile
  deriving DecidableEq, Repr

namespace Config

/-! ## §1. Slots -/

/-- The slot of a setting. -/
def Setting.slot : Setting → Slot
  | .ignore member | .mapPath member _ | .mapNested member _ _ | .mapFrom member _
  | .constant member _ | .sentinel member _ | .condition member _ | .order member _ =>
      .member member
  | .converter k => .converter k.source k.target
  | .constantFor v => .constantFor v.type
  | .sentinelFor v => .sentinelFor v.type
  | .factory _ => .factory
  | .before _ => .before
  | .after _ => .after
  | .guarded _ => .guards
  | .matcher _ => .matcher
  | .shapes _ => .shapes
  | .profile _ => .profile

/-- **Two configurations hold the same in a slot.**  In the slot of a member, they have the same
entries under its name. -/
def SameAt (c c' : Config) : Slot → Prop
  | .member name => c.members.filter (·.name = name) = c'.members.filter (·.name = name)
  | .converter a b => c.converters.get? a b = c'.converters.get? a b
  | .constantFor t => c.constants.get? t = c'.constants.get? t
  | .sentinelFor t => c.sentinels.get? t = c'.sentinels.get? t
  | .factory => c.factory = c'.factory
  | .before => c.before = c'.before
  | .after => c.after = c'.after
  | .guards => c.guards = c'.guards
  | .matcher => c.matcher = c'.matcher
  | .shapes => c.shapes = c'.shapes
  | .profile => c.profile = c'.profile

variable {c c' : Config} {slot : Slot}

theorem SameAt.refl (c : Config) (slot : Slot) : c.SameAt c slot := by
  cases slot <;> rfl

theorem SameAt.symm (h : c.SameAt c' slot) : c'.SameAt c slot := by
  cases slot <;> exact Eq.symm h

theorem SameAt.trans {c'' : Config} (h : c.SameAt c' slot) (h' : c'.SameAt c'' slot) :
    c.SameAt c'' slot := by
  cases slot <;> exact Eq.trans h h'

/-! ## §2. One setting -/

section Members

variable {f : MemberConfig → MemberConfig} (hf : ∀ m, (f m).name = m.name)

include hf

/-- The entries under one name are changed on their own. -/
theorem filter_updateMember (name : String) (ms : List MemberConfig) :
    (updateMember name f ms).filter (·.name = name) =
      updateMember name f (ms.filter (·.name = name)) := by
  induction ms with
  | nil => simp [updateMember, hf]
  | cons m ms ih =>
    by_cases hm : m.name = name
    · simp [updateMember, hm, hf]
    · simp [updateMember, hm, ih]

/-- The entries under other names stay. -/
theorem filter_updateMember_of_ne {name other : String} (h : name ≠ other)
    (ms : List MemberConfig) :
    (updateMember name f ms).filter (·.name = other) = ms.filter (·.name = other) := by
  induction ms with
  | nil => simp [updateMember, hf, h]
  | cons m ms ih =>
    by_cases hm : m.name = name
    · simp [updateMember, hm, hf, h]
    · simp [updateMember, hm, List.filter_cons, ih]

theorem sameAt_onMember_of_ne {name : String} (h : Slot.member name ≠ slot) (c : Config) :
    (c.onMember name f).SameAt c slot := by
  cases slot with
  | member other =>
    have hne : name ≠ other := by
      intro he
      exact h (congrArg Slot.member he)
    exact filter_updateMember_of_ne hf hne c.members
  | _ => rfl

theorem SameAt.onMember {name : String} (h : c.SameAt c' (.member name)) :
    (c.onMember name f).SameAt (c'.onMember name f) (.member name) := by
  show (updateMember name f c.members).filter (·.name = name) =
    (updateMember name f c'.members).filter (·.name = name)
  have hsame : c.members.filter (·.name = name) = c'.members.filter (·.name = name) := h
  rw [filter_updateMember hf, filter_updateMember hf, hsame]

end Members

/-- A setting on a member changes what is configured for it, and not its name. -/
theorem apply_of_slot_member {s : Setting} {name : String} (h : s.slot = .member name) :
    ∃ f : MemberConfig → MemberConfig, (∀ m, (f m).name = m.name) ∧
      ∀ c, Config.apply c s = c.onMember name f := by
  cases s <;> cases h
  all_goals
    refine ⟨_, ?_, fun _ => rfl⟩
    intro m
    rfl

/-- **A setting leaves all other slots alone.** -/
theorem sameAt_apply_of_ne {s : Setting} (h : s.slot ≠ slot) (c : Config) :
    (c.apply s).SameAt c slot := by
  by_cases hmember : ∃ name, s.slot = .member name
  · obtain ⟨name, hname⟩ := hmember
    obtain ⟨f, hf, happly⟩ := apply_of_slot_member hname
    rw [hname] at h
    rw [happly]
    exact sameAt_onMember_of_ne hf h c
  cases s with
  | converter k =>
    cases slot with
    | converter a b =>
      refine ConverterTable.get?_insert_of_ne _ k ?_
      intro hsame
      obtain ⟨rfl, rfl⟩ := hsame
      exact h rfl
    | _ => rfl
  | constantFor v =>
    cases slot with
    | constantFor t => exact ValueTable.get?_insert_of_ne _ fun he => h (congrArg Slot.constantFor he)
    | _ => rfl
  | sentinelFor v =>
    cases slot with
    | sentinelFor t => exact ValueTable.get?_insert_of_ne _ fun he => h (congrArg Slot.sentinelFor he)
    | _ => rfl
  -- The other settings are about a part that a configuration has once.
  | factory _ | before _ | after _ | guarded _ | matcher _ | shapes _ | profile _ =>
    cases slot <;> first
      | rfl
      | exact absurd rfl h
  | _ => exact absurd ⟨_, rfl⟩ hmember

/-- **What a setting makes of its slot** depends on that slot alone. -/
theorem SameAt.apply {s : Setting} (h : c.SameAt c' s.slot) :
    (c.apply s).SameAt (c'.apply s) s.slot := by
  by_cases hmember : ∃ name, s.slot = .member name
  · obtain ⟨name, hname⟩ := hmember
    obtain ⟨f, hf, happly⟩ := apply_of_slot_member hname
    rw [hname] at h ⊢
    rw [happly, happly]
    exact h.onMember hf
  cases s with
  | converter k =>
    exact (ConverterTable.get?_insert_self _ k).trans (ConverterTable.get?_insert_self _ k).symm
  | constantFor v => exact (ValueTable.get?_insert_self _ v).trans (ValueTable.get?_insert_self _ v).symm
  | sentinelFor v => exact (ValueTable.get?_insert_self _ v).trans (ValueTable.get?_insert_self _ v).symm
  -- Guards and hooks are put behind those there are.
  | guarded p => exact congrArg (· ++ [p]) h
  | before k => exact congrArg (· ++ [k]) h
  | after k => exact congrArg (· ++ [k]) h
  | factory _ | matcher _ | shapes _ | profile _ => rfl
  | _ => exact absurd ⟨_, rfl⟩ hmember

/-! ## §3. Runs of settings -/

/-- **What a run of settings makes of a slot** is told by the settings on that slot. -/
theorem SameAt.foldl (h : c.SameAt c' slot) (ss : List Setting) :
    (ss.foldl Config.apply c).SameAt ((ss.filter (·.slot = slot)).foldl Config.apply c') slot := by
  induction ss generalizing c c' with
  | nil => exact h
  | cons s ss ih =>
    by_cases hs : s.slot = slot
    · subst hs
      simp only [List.foldl_cons, List.filter_cons, decide_true, if_true]
      exact ih h.apply
    · simp only [List.foldl_cons, List.filter_cons, hs, decide_false, Bool.false_eq_true, if_false]
      exact ih ((sameAt_apply_of_ne hs c).trans h)

/-- **The same settings of a slot** give the same in that slot. -/
theorem sameAt_ofSettings {ss ss' : List Setting}
    (h : ss.filter (·.slot = slot) = ss'.filter (·.slot = slot)) (source destination : String) :
    (ofSettings source destination ss).SameAt (ofSettings source destination ss') slot := by
  have hstart := SameAt.refl { source, destination : Config } slot
  have hss := hstart.foldl ss
  have hss' := hstart.foldl ss'
  rw [← h] at hss'
  exact hss.trans hss'.symm

/-- **Two lists of settings agree slot by slot**: on each slot they have the same settings, in
the same order. -/
def SlotWise (ss ss' : List Setting) : Prop :=
  ∀ slot, ss.filter (·.slot = slot) = ss'.filter (·.slot = slot)

/-- Neighbours on different slots may be exchanged. -/
theorem slotWise_swap {s t : Setting} (h : s.slot ≠ t.slot) (pre post : List Setting) :
    SlotWise (pre ++ s :: t :: post) (pre ++ t :: s :: post) := by
  intro slot
  simp only [List.filter_append, List.filter_cons]
  by_cases hs : s.slot = slot
  · have ht : t.slot ≠ slot := by
      intro ht
      exact h (hs.trans ht.symm)
    simp [hs, ht]
  · simp [hs]

theorem source_ofSettings (source destination : String) (ss : List Setting) :
    (ofSettings source destination ss).source = source ∧
      (ofSettings source destination ss).destination = destination := by
  unfold ofSettings
  -- No setting changes the records.
  have hkeep : ∀ (c : Config) (s : Setting), (c.apply s).source = c.source ∧
      (c.apply s).destination = c.destination := by
    intro c s
    cases s <;> exact ⟨rfl, rfl⟩
  have hrun : ∀ (ss : List Setting) (c : Config), (ss.foldl Config.apply c).source = c.source ∧
      (ss.foldl Config.apply c).destination = c.destination := by
    intro ss
    induction ss with
    | nil => exact fun c => ⟨rfl, rfl⟩
    | cons s ss ih =>
      intro c
      obtain ⟨hsource, hdestination⟩ := ih (c.apply s)
      obtain ⟨hs, hd⟩ := hkeep c s
      exact ⟨hsource.trans hs, hdestination.trans hd⟩
  exact hrun ss _

/-! ## §4. Members -/

/-- Lists with the same elements under each key differ in their order only. -/
theorem perm_of_filter_key {α κ : Type} [DecidableEq κ] {key : α → κ} {xs ys : List α}
    (h : ∀ k, xs.filter (key · = k) = ys.filter (key · = k)) : xs.Perm ys := by
  classical
  rw [List.perm_iff_count]
  intro a
  have hkey : ∀ zs : List α, (zs.filter (key · = key a)).count a = zs.count a := by
    intro zs
    exact List.count_filter (by simp)
  rw [← hkey xs, h, hkey]

/-- **The same slots of members** have the same entries, in another order. -/
theorem entries_perm (h : ∀ name, c.SameAt c' (.member name)) : c.members.Perm c'.members :=
  perm_of_filter_key h

theorem SameAt.member? {name : String} (h : c.SameAt c' (.member name)) :
    c.member? name = c'.member? name := by
  have hfind : ∀ ms : List MemberConfig,
      ms.find? (·.name == name) = (ms.filter (·.name = name)).head? := by
    intro ms
    rw [List.head?_filter]
    congr 1
  unfold Config.member?
  rw [hfind, hfind]
  exact congrArg List.head? h

end Config

end RecordMap
