import RecordMap.Proofs.Run.Simulates

/-!
# Retracing runs

A run that once succeeded can be made again when what it left behind is still there.
The second run does not have to do what the first one did on the way: it finds done
what the first one did.

`Run.Retraces B R x y` says so of two runs.  Whatever `x` achieves, with an end in `B`,
is achieved by `y` from every related state.  What is in `B` at its end has been in `B`
all the time, so that a success of two runs within `B` is one of each.  For runs in
lockstep this is nothing new (`Run.Retraces.of_lockstep`).  As for `Run.Simulates` there
is a rule for each way a run is put together.
-/

namespace RecordMap

namespace Run

variable {s t u v α β κ : Type}

/-- **A run retraces another**: what the first one achieves within the bound, the second
one achieves as well. -/
structure Retraces (B : s → Prop) (R : s → t → Prop) (x : Run s α) (y : Run t α) : Prop where
  bounded : ∀ st, B (x.run st).2 → B st
  achieves : ∀ st ut a st', R st ut → B st' → x.run st = (.ok a, st') →
    ∃ ut', y.run ut = (.ok a, ut') ∧ R st' ut'

namespace Retraces

variable {B : s → Prop} {R : s → t → Prop} {D : u → Prop} {S : u → v → Prop}

/-- Runs in lockstep, if the first one leaves alone what the bound is about. -/
theorem of_lockstep {x : Run s α} {y : Run t α} {l : s → κ} {P : κ → Prop}
    (hsame : Simulates R (fun _ _ => False) x y)
    (hstays : ∀ k, Ensures (fun st => l st = k) (fun _ => True) (fun _ => True) x) :
    Retraces (fun st => P (l st)) R x y := by
  constructor
  case bounded =>
    intro st hst
    rw [(hstays (l st) st rfl).1] at hst
    exact hst
  case achieves =>
    intro st ut a st' hR _ hrun
    obtain ⟨hresult, hstate⟩ := hsame.lockstep st ut hR
    rw [hrun] at hresult hstate
    exact ⟨(y.run ut).2, Prod.ext hresult.symm rfl, hstate⟩

theorem pure (a : α) : Retraces B R (pure a) (pure a) := by
  constructor
  case bounded => exact fun _ hst => hst
  case achieves =>
    intro st ut b st' hR _ hrun
    cases hrun
    exact ⟨ut, rfl, hR⟩

/-- A failure achieves nothing. -/
theorem throw (e : MapError) (y : Run t α) : Retraces B R (throw e) y := by
  constructor
  case bounded => exact fun _ hst => hst
  case achieves =>
    intro st ut a st' _ _ hrun
    cases hrun

theorem require (o : Option α) (e : MapError) :
    Retraces B R (require o e) (require o e) := by
  cases o with
  | some a => exact pure a
  | none => exact throw e _

theorem modify {f : s → s} {g : t → t} (hB : ∀ st, B (f st) → B st)
    (hR : ∀ st ut, R st ut → R (f st) (g ut)) : Retraces B R (modify f) (modify g) := by
  constructor
  case bounded => exact hB
  case achieves =>
    intro st ut a st' hst _ hrun
    cases hrun
    exact ⟨g ut, rfl, hR st ut hst⟩

theorem bind {x : Run s α} {y : Run t α} {f : α → Run s β} {g : α → Run t β}
    (hxy : Retraces B R x y) (hfg : ∀ a, Retraces B R (f a) (g a)) :
    Retraces B R (x >>= f) (y >>= g) := by
  constructor
  case bounded =>
    intro st hst
    rcases hx : x.run st with ⟨e | a, mid⟩
    · rw [run_bind_error hx] at hst
      have hend : B (x.run st).2 := by
        rw [hx]
        exact hst
      exact hxy.bounded st hend
    · rw [run_bind_ok hx] at hst
      have hend : B (x.run st).2 := by
        rw [hx]
        exact (hfg a).bounded mid hst
      exact hxy.bounded st hend
  case achieves =>
    intro st ut b st' hR hB hrun
    obtain ⟨a, mid, hx, hf⟩ := bind_ok hrun
    -- The end of the first part is within the bound, as that of the second is.
    have hmid : B mid := by
      refine (hfg a).bounded mid ?_
      rw [hf]
      exact hB
    obtain ⟨mid', hy, hR'⟩ := hxy.achieves st ut a mid hR hmid hx
    obtain ⟨ut', hg, hend⟩ := (hfg a).achieves mid mid' b st' hR' hB hf
    refine ⟨ut', ?_, hend⟩
    rw [run_bind_ok hy, hg]

theorem map {x : Run s α} {y : Run t α} (f : α → β) (hxy : Retraces B R x y) :
    Retraces B R (f <$> x) (f <$> y) := by
  rw [map_eq_bind, map_eq_bind]
  exact hxy.bind fun a => pure (f a)

/-- Runs that look at their states, where related states look the same. -/
theorem bindGet {f : s → Run s β} {g : t → Run t β} {h : s → Run t β}
    (hfg : ∀ st, Retraces B R (f st) (h st)) (hlook : ∀ st ut, R st ut → h st = g ut) :
    Retraces B R (get >>= f) (get >>= g) := by
  constructor
  case bounded =>
    intro st hst
    rw [run_bind_ok (run_get st)] at hst
    exact (hfg st).bounded st hst
  case achieves =>
    intro st ut a st' hR hB hrun
    rw [run_bind_ok (run_get st)] at hrun
    rw [run_bind_ok (run_get ut), ← hlook st ut hR]
    exact (hfg st).achieves st ut a st' hR hB hrun

theorem zoom {x : Run u α} {y : Run v α} {getₗ : s → u} {putₗ : s → u → s} {getᵣ : t → v}
    {putᵣ : t → v → t} (hxy : Retraces D S x y) (hin : ∀ st a, B (putₗ st a) → D a)
    (hout : ∀ st, D (getₗ st) → B st) (hget : ∀ st ut, R st ut → S (getₗ st) (getᵣ ut))
    (hput : ∀ st ut a b, R st ut → S a b → R (putₗ st a) (putᵣ ut b)) :
    Retraces B R (zoom getₗ putₗ x) (zoom getᵣ putᵣ y) := by
  constructor
  case bounded =>
    intro st hst
    exact hout st (hxy.bounded _ (hin st _ hst))
  case achieves =>
    intro st ut a st' hR hB hrun
    rw [run_zoom] at hrun
    rcases hx : x.run (getₗ st) with ⟨r, part⟩
    rw [hx] at hrun
    cases hrun
    obtain ⟨part', hy, hS⟩ := hxy.achieves _ _ a part (hget st ut hR) (hin st part hB) hx
    refine ⟨putᵣ ut part', ?_, hput st ut part part' hR hS⟩
    rw [run_zoom, hy]

/-- Retracing is kept in a row. -/
theorem sequential (B : s → Prop) (R : s → t → Prop) :
    Sequential fun α (x : Run s α) (y : Run t α) => Retraces B R x y where
  pure := pure
  bind := bind

theorem mapM {f : α → Run s β} {g : α → Run t β} {as : List α}
    (h : ∀ a ∈ as, Retraces B R (f a) (g a)) :
    Retraces B R (as.mapM f) (as.mapM g) :=
  (sequential B R).mapM h

theorem forM {f : α → Run s PUnit} {g : α → Run t PUnit} {as : List α}
    (h : ∀ a ∈ as, Retraces B R (f a) (g a)) :
    Retraces B R (as.forM f) (as.forM g) :=
  (sequential B R).forM h

end Retraces

end Run

end RecordMap
