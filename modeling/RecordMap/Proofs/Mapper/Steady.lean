import Mathlib.Data.List.Nodup
import RecordMap.Proofs.Mapper.Frame

/-!
# Steady plans

A plan is *steady* if nothing in it looks at the destination or at the context of the
call: it has no hooks, no provider that reads the destination, and no body over the
context.  Then the turn of a member comes to the same at every destination, in every
call and at every place in the order (`MemberPlan.Steady.simulates_turn`).

What turns leave of a destination is an overlay.  As long as the members are distinct,
laying it over twice is laying it over once (`overlay_overlay`), and the order of the
turns does not matter (`overlay_perm`).
-/

namespace RecordMap

variable {ω ω' : Type} {σ : Schema} {parameter handedOn : Option Value} {source : Value}

/-! ## §1. Overlays -/

theorem MemberPlan.put_comm {m n : MemberPlan} (h : m.declaration ≠ n.declaration)
    (o o' : Option Value) (d : Value) : m.put (n.put d o') o = n.put (m.put d o) o' := by
  cases o with
  | none => rfl
  | some v =>
    cases o' with
    | none => rfl
    | some w =>
      cases d with
      | record r members =>
        exact congrArg (Value.record r) (List.set_comm _ _ h.symm)
      | _ => rfl

theorem MemberPlan.put_put (m : MemberPlan) (o : Option Value) (d : Value) :
    m.put (m.put d o) o = m.put d o := by
  cases o with
  | none => rfl
  | some v =>
    cases d with
    | record r members => exact congrArg (Value.record r) (List.set_set ..)
    | _ => rfl

/-- Turns at other places can be taken before or after one. -/
theorem overlay_put {turns : List (MemberPlan × Option Value)} {m : MemberPlan}
    (h : ∀ taken ∈ turns, taken.1.declaration ≠ m.declaration) (o : Option Value) (d : Value) :
    overlay turns (m.put d o) = m.put (overlay turns d) o := by
  induction turns generalizing d with
  | nil => rfl
  | cons taken turns ih =>
    obtain ⟨hhead, hrest⟩ := List.forall_mem_cons.mp h
    show overlay turns (taken.1.put (m.put d o) taken.2) =
      m.put (overlay turns (taken.1.put d taken.2)) o
    rw [MemberPlan.put_comm hhead, ih hrest]

/-- **Laying turns over a destination twice** is laying them over it once. -/
theorem overlay_overlay {turns : List (MemberPlan × Option Value)}
    (hdistinct : turns.Pairwise fun x y => x.1.declaration ≠ y.1.declaration) (d : Value) :
    overlay turns (overlay turns d) = overlay turns d := by
  induction turns generalizing d with
  | nil => rfl
  | cons taken turns ih =>
    obtain ⟨m, o⟩ := taken
    obtain ⟨hhead, hrest⟩ := List.pairwise_cons.mp hdistinct
    have hothers : ∀ taken ∈ turns, taken.1.declaration ≠ m.declaration :=
      fun taken hmem => (hhead taken hmem).symm
    calc overlay ((m, o) :: turns) (overlay ((m, o) :: turns) d)
        = overlay turns (m.put (overlay turns (m.put d o)) o) := rfl
      _ = overlay turns (overlay turns (m.put (m.put d o) o)) := by
        rw [← overlay_put hothers o (m.put d o)]
      _ = overlay turns (m.put d o) := by rw [m.put_put, ih hrest]

/-- **The order of turns does not matter** if their members are distinct. -/
theorem overlay_perm {turns turns' : List (MemberPlan × Option Value)} (h : turns.Perm turns')
    (hdistinct : turns.Pairwise fun x y => x.1.declaration ≠ y.1.declaration) (d : Value) :
    overlay turns d = overlay turns' d := by
  have hplaces : (turns.map fun taken => taken.1.declaration).Nodup :=
    List.pairwise_map.mpr hdistinct
  refine h.foldl_eq' ?_ d
  intro x hx y hy z
  by_cases hxy : x = y
  · rw [hxy]
  · have hne : y.1.declaration ≠ x.1.declaration := by
      intro heq
      exact hxy (List.inj_on_of_nodup_map hplaces hx hy heq.symm)
    exact MemberPlan.put_comm hne _ _ _

/-! ## §2. Steady plans -/

/-- The body of a provider reads the destination. -/
def Provider.readsDestination (p : Provider) : Bool :=
  match p.body with
  | .destination _ => true
  | _ => false

/-- **A steady member** looks neither at the destination nor at the context. -/
structure MemberPlan.Steady (m : MemberPlan) : Prop where
  providers : ∀ p k sentinel, m.production = .read (.provider p) k sentinel →
    p.readsDestination = false ∧ p.usesContext = false
  converters : ∀ a k sentinel, m.production = .read a k sentinel →
    ∀ f ∈ k.converters, f.usesContext = false

/-- **A steady plan** has steady members and no hooks. -/
structure Specification.Steady (s : Specification) : Prop where
  before : s.before = []
  after : s.after = []
  members : ∀ m ∈ s.members, m.Steady

theorem Provider.provide_eq {p : Provider} (h : p.readsDestination = false)
    (d d' : Value) : (p.provide σ parameter source d : Run (Call ω) Value) =
      p.provide σ parameter source d' := by
  unfold readsDestination at h
  unfold provide
  cases hbody : p.body with
  | destination f =>
    rw [hbody] at h
    cases h
  | _ => rfl

section

variable {I : Call ω → Call ω' → Prop} {esc : MapError → Call ω → Prop} {m : MemberPlan}
  {nest : Nesting ω} {nest' : Nesting ω'}

/-- A provider that is blind to destination and context. -/
theorem Provider.simulates_blind (hI : Call.KeepsNotes I) {p : Provider}
    (h : p.readsDestination = false ∧ p.usesContext = false) (d d' : Value) :
    Run.Simulates I esc (p.provide σ parameter source d) (p.provide σ parameter source d') := by
  rw [p.provide_eq h.1 d d']
  refine p.simulates_provide hI (fun hcontext => ?_) source d'
  rw [h.2] at hcontext
  cases hcontext

/-- **The turn of a steady member** comes to the same, whatever the destination is and
whatever is in the store. -/
theorem MemberPlan.Steady.simulates_turn (h : m.Steady) (hI : Call.KeepsNotes I)
    (hnested : ∀ a k sentinel, m.production = .read a k sentinel → ∀ p ∈ k.pairings, ∀ v,
      Run.Simulates I esc (Call.onTrail (nest p v handedOn)) (Call.onTrail (nest' p v handedOn)))
    (recordName : String) (d d' : Value) :
    Run.Simulates I esc (m.turn σ parameter handedOn nest recordName source d)
      (m.turn σ parameter handedOn nest' recordName source d') := by
  have hvalue : Run.Simulates I esc (m.value σ parameter handedOn nest recordName source d)
      (m.value σ parameter handedOn nest' recordName source d') := by
    unfold MemberPlan.value
    cases hproduction : m.production with
    | constant v => exact .pure v
    | read a k sentinel =>
      have hconverters : ∀ f ∈ k.converters, ∀ v,
          Run.Simulates I esc (f.apply σ parameter v) (f.apply σ parameter v) := by
        intro f hf v
        refine f.simulates_apply hI (fun hcontext => ?_) v
        rw [h.converters a k sentinel hproduction f hf] at hcontext
        cases hcontext
      have hconversion := k.simulates_leaves (σ := σ) hconverters (hnested a k sentinel hproduction)
      have hread : Run.Simulates I esc
          (a.read σ parameter handedOn nest recordName source d k)
          (a.read σ parameter handedOn nest' recordName source d' k) := by
        unfold Accessor.read
        cases a with
        | path p =>
          dsimp only
          split
          · exact hconversion _
          · exact .pure none
        | provider p =>
          exact (Provider.simulates_blind hI (h.providers p k sentinel hproduction) d d').bind
            hconversion
      exact hread.bind fun o => .pure _
  unfold MemberPlan.turn
  refine (Condition.simulates_allHold hI m.conditions source).bind fun holds => ?_
  cases holds with
  | false => exact .pure none
  | true => exact hvalue.bind fun v => .map _ (.require _ _)

end

end RecordMap
