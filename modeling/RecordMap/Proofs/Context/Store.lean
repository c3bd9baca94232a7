import Mathlib.Data.List.Induction
import RecordMap.Context

/-!
# The scratch store as a typed store

The callbacks of one call see each other only through the scratch store, so what
they may rely on is a law about histories: which value is found after a sequence
of insertions, look-ups and removals under any keys and types.

What is found under a key is the value of the last insertion under it, as long as
no removal under it came later (`Scratch.lookup?_after_iff`), and uses of other
keys do not matter (`Scratch.transcript_filter`).  Whether the later removal
handed anything out makes no difference: one that asks for another type than the
stored one drops the value.  A history in which no removal does so is *matched*,
and in a matched history only the removals that hand a value out count
(`Scratch.Matched.lookup?_after_iff`).
-/

namespace RecordMap.Scratch

/-! ## §1. Histories -/

/-- One use of the store. -/
inductive Use where
  | insert (key : String) (v : Value)
  | get (t : Ty) (key : String)
  | remove (t : Ty) (key : String)
  deriving Repr

namespace Use

/-- The key that is used. -/
def key : Use → String
  | insert key _ | get _ key | remove _ key => key

/-- Use the store: what is handed out, and the store afterwards. -/
def perform (s : Scratch) : Use → Option Value × Scratch
  | insert key v => (none, s.insert key v)
  | get t key => (s.get? t key, s)
  | remove t key => s.remove t key

/-- An insertion under the key. -/
def Inserts (key : String) (u : Use) : Prop := ∃ v, u = insert key v

/-- A removal under the key, for a value of any type. -/
def Removes (key : String) (u : Use) : Prop := ∃ t, u = remove t key

end Use

/-- The store after a history. -/
def after (s : Scratch) (uses : List Use) : Scratch :=
  uses.foldl (fun s u => (u.perform s).2) s

/-- A history with what each use of it hands out. -/
def transcript (s : Scratch) : List Use → List (Use × Option Value)
  | [] => []
  | u :: uses => (u, (u.perform s).1) :: transcript (u.perform s).2 uses

variable {s s' : Scratch} {key : String} {t : Ty} {v : Value} {u : Use} {uses : List Use}

@[simp] theorem after_nil (s : Scratch) : s.after [] = s := rfl

@[simp] theorem after_cons (s : Scratch) (u : Use) (uses : List Use) :
    s.after (u :: uses) = (u.perform s).2.after uses := rfl

theorem after_append (s : Scratch) (uses later : List Use) :
    s.after (uses ++ later) = (s.after uses).after later := by
  unfold after
  rw [List.foldl_append]

theorem transcript_append (s : Scratch) (uses later : List Use) :
    s.transcript (uses ++ later) = s.transcript uses ++ (s.after uses).transcript later := by
  induction uses generalizing s with
  | nil => rfl
  | cons u uses ih => simp only [List.cons_append, transcript, after_cons, ih]

theorem get?_eq_some_iff : s.get? t key = some v ↔ v.type = t ∧ s.lookup? key = some v := by
  unfold get?
  rw [Option.bind_eq_some_iff]
  constructor
  · rintro ⟨w, hw, hv⟩
    obtain ⟨ht, rfl⟩ := Value.as?_eq_some_iff.mp hv
    exact ⟨ht, hw⟩
  · rintro ⟨ht, hw⟩
    exact ⟨v, hw, Value.as?_eq_some_iff.mpr ⟨ht, rfl⟩⟩

/-! ## §2. Keys do not interfere -/

theorem lookup?_perform_of_ne (s : Scratch) (h : u.key ≠ key) :
    (u.perform s).2.lookup? key = s.lookup? key := by
  cases u with
  | insert k v => exact lookup?_insert_of_ne s v h
  | get t k => rfl
  | remove t k => exact lookup?_erase_of_ne s h

/-- What a use hands out and leaves under its own key depends on that key alone. -/
theorem perform_congr (h : s.lookup? u.key = s'.lookup? u.key) :
    (u.perform s).1 = (u.perform s').1 ∧
      (u.perform s).2.lookup? u.key = (u.perform s').2.lookup? u.key := by
  cases u with
  | insert k v =>
    exact ⟨rfl, (lookup?_insert_self s k v).trans (lookup?_insert_self s' k v).symm⟩
  | get t k => exact ⟨congrArg (·.bind (·.as? t)) h, h⟩
  | remove t k =>
    exact ⟨congrArg (·.bind (·.as? t)) h,
      (lookup?_erase_self s k).trans (lookup?_erase_self s' k).symm⟩

/-- **Keys do not interfere.**  What the uses of one key hand out is what they
hand out in the history of this key alone, from any store with the same value
under it. -/
theorem transcript_filter (uses : List Use) (h : s.lookup? key = s'.lookup? key) :
    (s.transcript uses).filter (·.1.key = key) =
      s'.transcript (uses.filter (·.key = key)) := by
  induction uses generalizing s s' with
  | nil => rfl
  | cons u uses ih =>
    by_cases hu : u.key = key
    · subst hu
      obtain ⟨hout, hleft⟩ := perform_congr h
      rw [List.filter_cons_of_pos (by simp), transcript, List.filter_cons_of_pos (by simp),
        transcript, hout, ih hleft]
    · rw [List.filter_cons_of_neg (by simpa using hu), transcript,
        List.filter_cons_of_neg (by simpa using hu)]
      exact ih ((lookup?_perform_of_ne s hu).trans h)

/-- Two stores with the same values answer every history alike. -/
theorem transcript_congr (uses : List Use) (h : ∀ key, s.lookup? key = s'.lookup? key) :
    s.transcript uses = s'.transcript uses := by
  induction uses generalizing s s' with
  | nil => rfl
  | cons u uses ih =>
    obtain ⟨hout, hleft⟩ := perform_congr (h u.key)
    have hall (k : String) : (u.perform s).2.lookup? k = (u.perform s').2.lookup? k := by
      by_cases hk : u.key = k
      · exact hk ▸ hleft
      · rw [lookup?_perform_of_ne s hk, lookup?_perform_of_ne s' hk, h k]
    rw [transcript, transcript, hout, ih hall]

/-! ## §3. The last use that matters -/

/-- `a` occurs, and nothing after it satisfies `P`. -/
def LastBefore {α : Type} (P : α → Prop) (a : α) (as : List α) : Prop :=
  ∃ before later, as = before ++ a :: later ∧ ∀ x ∈ later, ¬P x

theorem not_lastBefore_nil {α : Type} {P : α → Prop} {a : α} : ¬LastBefore P a [] := by
  rintro ⟨before, later, h, -⟩
  exact absurd h.symm (by simp)

theorem lastBefore_snoc_iff {α : Type} {P : α → Prop} {a b : α} {as : List α} :
    LastBefore P a (as ++ [b]) ↔ b = a ∨ ¬P b ∧ LastBefore P a as := by
  constructor
  · rintro ⟨before, later, h, hlater⟩
    rcases List.eq_nil_or_concat later with rfl | ⟨later, c, hsnoc⟩
    · exact .inl (List.append_inj_right' h rfl |> List.singleton_inj.mp)
    · rw [List.concat_eq_append] at hsnoc
      subst hsnoc
      rw [← List.cons_append, ← List.append_assoc] at h
      obtain ⟨has, hc⟩ := List.append_inj' h rfl
      obtain rfl := List.singleton_inj.mp hc
      exact .inr ⟨hlater b (by simp), before, later, has,
        fun x hx => hlater x (List.mem_append_left _ hx)⟩
  · rintro (rfl | ⟨hb, before, later, rfl, hlater⟩)
    · exact ⟨as, [], rfl, by simp⟩
    · refine ⟨before, later ++ [b], by simp, fun x hx => ?_⟩
      rcases List.mem_append.mp hx with hx | hx
      · exact hlater x hx
      · rw [List.mem_singleton.mp hx]
        exact hb

/-- The use changes what is under the key. -/
def Use.Changes (key : String) (u : Use) : Prop := u.Inserts key ∨ u.Removes key

theorem Use.Changes.key_eq (h : u.Changes key) : u.key = key := by
  rcases h with ⟨v, rfl⟩ | ⟨t, rfl⟩ <;> rfl

theorem lookup?_perform_of_not_changes (s : Scratch) (h : ¬u.Changes key) :
    (u.perform s).2.lookup? key = s.lookup? key := by
  by_cases hu : u.key = key
  · cases u with
    | insert k v => exact absurd (.inl ⟨v, congrArg (Use.insert · v) hu⟩) h
    | get t k => rfl
    | remove t k => exact absurd (.inr ⟨t, congrArg (Use.remove t) hu⟩) h
  · exact lookup?_perform_of_ne s hu

/-- **What is under a key** after a history is the value of the last insertion
under it, if no removal under it came later. -/
theorem lookup?_after_iff (uses : List Use) :
    (({} : Scratch).after uses).lookup? key = some v ↔
      LastBefore (Use.Changes key) (.insert key v) uses := by
  induction uses using List.reverseRecOn with
  | nil => exact ⟨fun h => by simp at h, fun h => absurd h not_lastBefore_nil⟩
  | append_singleton uses u ih =>
    rw [after_append, after_cons, after_nil, lastBefore_snoc_iff]
    by_cases hu : u.Changes key
    · rcases hu with ⟨w, rfl⟩ | ⟨t, rfl⟩
      · have hchanges : (Use.insert key w).Changes key := .inl ⟨w, rfl⟩
        show ((_ : Scratch).insert key w).lookup? key = _ ↔ _
        simp [lookup?_insert_self, hchanges]
      · have hchanges : (Use.remove t key).Changes key := .inr ⟨t, rfl⟩
        show ((_ : Scratch).erase key).lookup? key = _ ↔ _
        simp [lookup?_erase_self, hchanges]
    · rw [lookup?_perform_of_not_changes _ hu, ih]
      constructor
      · exact fun h => .inr ⟨hu, h⟩
      · rintro (rfl | ⟨-, h⟩)
        · exact absurd (.inl ⟨v, rfl⟩) hu
        · exact h

/-! ## §4. Removals that hand nothing out -/

/-- A removal goes unnoticed by everything that can follow just if there was
nothing under its key. -/
theorem transcript_erase_iff :
    (∀ later, (s.erase key).transcript later = s.transcript later) ↔
      s.lookup? key = none := by
  constructor
  · intro h
    cases hv : s.lookup? key with
    | none => rfl
    | some v =>
      have hget := h [.get v.type key]
      have hs : s.get? v.type key = some v := get?_eq_some_iff.mpr ⟨rfl, hv⟩
      have he : (s.erase key).get? v.type key = none := by
        unfold get?
        rw [lookup?_erase_self]
        rfl
      simp [transcript, Use.perform, hs, he] at hget
  · intro h later
    refine transcript_congr later fun k => ?_
    by_cases hk : key = k
    · rw [← hk, lookup?_erase_self, h]
    · exact lookup?_erase_of_ne s hk

/-- **A matched history**: whenever a removal hands nothing out, there is nothing
under its key. -/
def Matched (s : Scratch) : List Use → Prop
  | [] => True
  | u :: uses =>
    (∀ t key, u = .remove t key → s.get? t key = none → s.lookup? key = none) ∧
      Matched (u.perform s).2 uses

theorem matched_snoc_iff : s.Matched (uses ++ [u]) ↔
    s.Matched uses ∧ (s.after uses).Matched [u] := by
  induction uses generalizing s with
  | nil => simp [Matched]
  | cons w uses ih =>
    simp only [List.cons_append, Matched, after_cons] at ih ⊢
    rw [ih, and_assoc]

/-- The use put something under the key or took something from it. -/
def Moves (key : String) (e : Use × Option Value) : Prop :=
  e.1.Inserts key ∨ e.1.Removes key ∧ e.2 ≠ none

theorem Moves.changes {e : Use × Option Value} (h : Moves key e) : e.1.Changes key :=
  h.imp_right And.left

/-- In a matched history a removal counts only if it handed something out. -/
theorem Matched.lookup?_after_iff (h : ({} : Scratch).Matched uses) :
    (({} : Scratch).after uses).lookup? key = some v ↔
      LastBefore (Moves key) (.insert key v, none) (({} : Scratch).transcript uses) := by
  induction uses using List.reverseRecOn with
  | nil => exact ⟨fun h => by simp at h, fun h => absurd h not_lastBefore_nil⟩
  | append_singleton uses u ih =>
    obtain ⟨hmatched, hlast, -⟩ := matched_snoc_iff.mp h
    rw [after_append, after_cons, after_nil, transcript_append]
    show _ ↔ LastBefore _ _ (_ ++ [(u, (u.perform _).1)])
    rw [lastBefore_snoc_iff]
    by_cases hu : u.Changes key
    · rcases hu with ⟨w, rfl⟩ | ⟨t, rfl⟩
      · have hmoves : Moves key (.insert key w, none) := .inl ⟨w, rfl⟩
        show ((_ : Scratch).insert key w).lookup? key = _ ↔ (Use.insert key w, none) = _ ∨ _
        simp [lookup?_insert_self, Use.perform, hmoves]
      · show ((_ : Scratch).erase key).lookup? key = _ ↔ (Use.remove t key, _) = _ ∨ _
        rw [lookup?_erase_self]
        refine ⟨fun h => (by cases h), ?_⟩
        rintro (h | ⟨hstill, h⟩)
        · cases h
        · -- Nothing was handed out, so nothing was there, and yet the value was.
          have hout : (({} : Scratch).after uses).get? t key = none := by
            by_contra hsome
            exact hstill (.inr ⟨⟨t, rfl⟩, hsome⟩)
          have hnone := hlast t key rfl hout
          rw [(ih hmatched).mpr h] at hnone
          cases hnone
    · rw [lookup?_perform_of_not_changes _ hu, ih hmatched]
      constructor
      · exact fun h => .inr ⟨fun hmoves => hu hmoves.changes, h⟩
      · rintro (h | ⟨-, h⟩)
        · exact absurd (.inl ⟨v, congrArg Prod.fst h⟩) hu
        · exact h

/-! ## §5. The laws of the store -/

/-- **The laws of the store**, after any history of a call.

A look-up gives a value just if it is of the type asked for and is the one of the
last insertion under the key with no removal under it since.  A removal hands out
what a look-up would have given.  One that hands nothing out goes unnoticed just
if there was nothing under its key.  If that is so of every removal of the
history, the only removals a look-up minds are those that handed something out.
What the uses of one key hand out does not depend on the uses of others. -/
theorem store_laws (uses : List Use) (t : Ty) (key : String) (v : Value) :
    ((({} : Scratch).after uses).get? t key = some v ↔
      v.type = t ∧ LastBefore (Use.Changes key) (.insert key v) uses) ∧
    ((({} : Scratch).after uses).remove t key).1 = (({} : Scratch).after uses).get? t key ∧
    (((({} : Scratch).after uses).remove t key).1 = none →
      ((∀ later, ((({} : Scratch).after uses).remove t key).2.transcript later =
          (({} : Scratch).after uses).transcript later) ↔
        (({} : Scratch).after uses).lookup? key = none)) ∧
    (({} : Scratch).Matched uses →
      ((({} : Scratch).after uses).get? t key = some v ↔
        v.type = t ∧
          LastBefore (Moves key) (.insert key v, none) (({} : Scratch).transcript uses))) ∧
    (({} : Scratch).transcript uses).filter (·.1.key = key) =
      ({} : Scratch).transcript (uses.filter (·.key = key)) := by
  refine ⟨?_, rfl, fun _ => transcript_erase_iff, fun h => ?_, transcript_filter uses rfl⟩
  · rw [get?_eq_some_iff, lookup?_after_iff]
  · rw [get?_eq_some_iff, h.lookup?_after_iff]

/-- A removal of a key that is not in use leaves the history matched. -/
theorem store_laws_of_matched :
    ({} : Scratch).Matched [.insert "n" (.int .i32 3), .remove (.prim .text) "m"] ∧
      ((({} : Scratch).after
          [.insert "n" (.int .i32 3), .remove (.prim .text) "m"]).remove
            (.prim .text) "m").1 = none ∧
      (({} : Scratch).after
          [.insert "n" (.int .i32 3), .remove (.prim .text) "m"]).get?
            (.prim (.int .i32)) "n" = some (.int .i32 3) := by
  have hmatched :
      ({} : Scratch).Matched [.insert "n" (.int .i32 3), .remove (.prim .text) "m"] := by
    refine ⟨fun t key h => (by cases h), fun t key h _ => ?_, trivial⟩
    cases h
    rfl
  have hlaws := store_laws [.insert "n" (.int .i32 3), .remove (.prim .text) "m"]
    (.prim (.int .i32)) "n" (.int .i32 3)
  refine ⟨hmatched, rfl, (hlaws.2.2.2.1 hmatched).mpr ⟨rfl, [], [(.remove (.prim .text) "m", none)],
    rfl, ?_⟩⟩
  intro e he hmoves
  rw [List.mem_singleton.mp he] at hmoves
  exact absurd hmoves.changes.key_eq (by decide)

/-- **A removal that hands nothing out can lose the value.**  The value is of
another type than the one asked for, and is gone afterwards. -/
theorem removal_drops_value :
    ((({} : Scratch).after [.insert "n" (.int .i32 3)]).remove (.prim .text) "n").1 = none ∧
      (({} : Scratch).after [.insert "n" (.int .i32 3)]).get? (.prim (.int .i32)) "n" =
        some (.int .i32 3) ∧
      ((({} : Scratch).after [.insert "n" (.int .i32 3)]).remove (.prim .text) "n").2.get?
        (.prim (.int .i32)) "n" = none := by
  refine ⟨?_, ?_, ?_⟩ <;> rfl

end RecordMap.Scratch
