import RecordMap.Proofs.Run.Ensures

/-!
# Simulation of runs

Two runs over different states, such as one that reaches nested mappers through
links and a registry and one that compiles them on the spot, are compared by
`Run.Simulates R esc x y`: from related states both give the same result and end
in related states, unless `x` escapes.

With nothing in `esc` the runs go in lockstep.  An escape is a failure that the
first run may end with where the other goes on, such as that of a bound: an error
in a state.  As for `Run.Ensures` there is a rule for each way a run is put
together.
-/

namespace RecordMap

namespace Run

variable {s t u v α β : Type}

/-- **Simulation**: the same result and related states, or an escape. -/
def Simulates (R : s → t → Prop) (esc : MapError → s → Prop) (x : Run s α) (y : Run t α) : Prop :=
  ∀ st ut, R st ut →
    (∃ e, (x.run st).1 = .error e ∧ esc e (x.run st).2) ∨
      ((x.run st).1 = (y.run ut).1 ∧ R (x.run st).2 (y.run ut).2)

namespace Simulates

variable {R : s → t → Prop} {S : u → v → Prop} {esc : MapError → s → Prop}
  {esc' : MapError → u → Prop}

theorem pure (a : α) : Simulates R esc (pure a) (pure a) := by
  intro st ut hst
  exact .inr ⟨rfl, hst⟩

theorem throw (e : MapError) : Simulates R esc (throw e : Run s α) (throw e) :=
  fun _ _ h => .inr ⟨rfl, h⟩

theorem require (o : Option α) (e : MapError) :
    Simulates R esc (require o e) (require o e) := by
  cases o with
  | some a => exact pure a
  | none => exact throw e

theorem modify {f : s → s} {g : t → t} (h : ∀ st ut, R st ut → R (f st) (g ut)) :
    Simulates R esc (modify f) (modify g) := by
  intro st ut hst
  exact .inr ⟨rfl, h st ut hst⟩

theorem bind {x : Run s α} {y : Run t α} {f : α → Run s β} {g : α → Run t β}
    (hxy : Simulates R esc x y) (hfg : ∀ a, Simulates R esc (f a) (g a)) :
    Simulates R esc (x >>= f) (y >>= g) := by
  intro st ut hst
  rcases hx : x.run st with ⟨rx, st'⟩
  rcases hy : y.run ut with ⟨ry, ut'⟩
  -- An escape of the first part is one of the whole.
  have h := hxy st ut hst
  rw [hx, hy] at h
  rcases h with ⟨e, hrx, he⟩ | ⟨hr, hst'⟩
  · cases hrx
    rw [run_bind_error hx]
    exact .inl ⟨e, rfl, he⟩
  · cases hr
    cases rx with
    | error e =>
      rw [run_bind_error hx, run_bind_error hy]
      exact .inr ⟨rfl, hst'⟩
    | ok a =>
      rw [run_bind_ok hx, run_bind_ok hy]
      exact hfg a st' ut' hst'

/-- With no escape the runs go in lockstep. -/
theorem lockstep {x : Run s α} {y : Run t α} (hxy : Simulates R (fun _ _ => False) x y) (st : s)
    (ut : t) (hst : R st ut) : (x.run st).1 = (y.run ut).1 ∧ R (x.run st).2 (y.run ut).2 := by
  rcases hxy st ut hst with ⟨_, _, hno⟩ | hsame
  · exact hno.elim
  · exact hsame

/-- Runs over the same states that go in lockstep from each of them are the same. -/
theorem eq {x y : Run s α} (hxy : Simulates (fun st ut => st = ut) (fun _ _ => False) x y) :
    x = y := by
  refine ExceptT.ext (StateT.ext fun st => ?_)
  obtain ⟨hresult, hstate⟩ := hxy.lockstep st st rfl
  exact Prod.ext hresult hstate

theorem refl (x : Run s α) : Simulates (fun st ut => st = ut) esc x x := by
  intro st ut hst
  subst hst
  exact .inr ⟨rfl, rfl⟩

/-- Runs that look at their states may go on with different looks. -/
theorem bindGet {f : s → Run s β} {g : t → Run t β}
    (h : ∀ st ut, R st ut → Simulates R esc (f st) (g ut)) :
    Simulates R esc (get >>= f) (get >>= g) := by
  intro st ut hst
  rw [run_bind_ok (run_get st), run_bind_ok (run_get ut)]
  exact h st ut hst st ut hst

theorem map {x : Run s α} {y : Run t α} (f : α → β) (hxy : Simulates R esc x y) :
    Simulates R esc (f <$> x) (f <$> y) := by
  rw [map_eq_bind, map_eq_bind]
  exact hxy.bind fun a => pure (f a)

theorem zoom {x : Run u α} {y : Run v α} {getₗ : s → u} {putₗ : s → u → s} {getᵣ : t → v}
    {putᵣ : t → v → t} (hxy : Simulates S esc' x y)
    (hget : ∀ st ut, R st ut → S (getₗ st) (getᵣ ut))
    (hput : ∀ st ut a b, R st ut → S a b → R (putₗ st a) (putᵣ ut b))
    (hesc : ∀ st ut a e, R st ut → esc' e a → esc e (putₗ st a)) :
    Simulates R esc (zoom getₗ putₗ x) (zoom getᵣ putᵣ y) := by
  intro st ut hst
  rw [run_zoom, run_zoom]
  rcases hxy (getₗ st) (getᵣ ut) (hget st ut hst) with ⟨e, hx, he⟩ | ⟨hr, hS⟩
  · exact .inl ⟨e, hx, hesc st ut _ e hst he⟩
  · exact .inr ⟨hr, hput st ut _ _ hst hS⟩

/-- Simulation is kept in a row. -/
theorem sequential (R : s → t → Prop) (esc : MapError → s → Prop) :
    Sequential fun α (x : Run s α) (y : Run t α) => Simulates R esc x y where
  pure := pure
  bind := bind

theorem mapM {f : α → Run s β} {g : α → Run t β} {as : List α}
    (h : ∀ a ∈ as, Simulates R esc (f a) (g a)) :
    Simulates R esc (as.mapM f) (as.mapM g) :=
  (sequential R esc).mapM h

theorem forM {f : α → Run s PUnit} {g : α → Run t PUnit} {as : List α}
    (h : ∀ a ∈ as, Simulates R esc (f a) (g a)) :
    Simulates R esc (as.forM f) (as.forM g) :=
  (sequential R esc).forM h

end Simulates

end Run

end RecordMap
