import RecordMap.Proofs.Run.Ensures

/-!
# Runs in step

Two runs over the same state, such as one that converts a nest of options and
sequences and one that converts the values in it one after the other, are compared
by `Run.InStep I Q x y`: from a state with the invariant `I` both fail alike, or
both succeed with values that `Q` relates, and they end in the same state, which has
the invariant again.

The runs of `Run.Simulates` have states of their own and give the same value; here
the state is shared and the values may differ.  There is a rule for each way a run
is put together.
-/

namespace RecordMap

namespace Run

variable {s α β γ δ : Type} {I : s → Prop}

/-- **In step**: the same failure or related values, and the same state after it. -/
def InStep (I : s → Prop) (Q : α → β → Prop) (x : Run s α) (y : Run s β) : Prop :=
  ∀ st, I st → ∃ st', I st' ∧
    ((∃ e, x.run st = (.error e, st') ∧ y.run st = (.error e, st')) ∨
      ∃ a b, x.run st = (.ok a, st') ∧ y.run st = (.ok b, st') ∧ Q a b)

namespace InStep

theorem pure {Q : α → β → Prop} {a : α} {b : β} (h : Q a b) :
    InStep I Q (pure a) (pure b) := by
  intro st hst
  exact ⟨st, hst, .inr ⟨a, b, rfl, rfl, h⟩⟩

/-- A run is in step with itself. -/
theorem refl {Q : α → Prop} {F : MapError → Prop} {x : Run s α} (h : Ensures I Q F x) :
    InStep I (fun a b => a = b ∧ Q a) x x := by
  intro st hst
  obtain ⟨hkeep, hres⟩ := h st hst
  rcases hx : x.run st with ⟨e | a, st'⟩
  · rw [hx] at hkeep
    exact ⟨st', hkeep, .inl ⟨e, rfl, rfl⟩⟩
  · rw [hx] at hkeep hres
    exact ⟨st', hkeep, .inr ⟨a, a, rfl, rfl, rfl, hres⟩⟩

theorem bind {Q : α → β → Prop} {P : γ → δ → Prop} {x : Run s α} {y : Run s β}
    {f : α → Run s γ} {g : β → Run s δ} (hxy : InStep I Q x y)
    (hfg : ∀ a b, Q a b → InStep I P (f a) (g b)) : InStep I P (x >>= f) (y >>= g) := by
  intro st hst
  obtain ⟨mid, hmid, ⟨e, hx, hy⟩ | ⟨a, b, hx, hy, hab⟩⟩ := hxy st hst
  · exact ⟨mid, hmid, .inl ⟨e, run_bind_error hx, run_bind_error hy⟩⟩
  · rw [run_bind_ok hx, run_bind_ok hy]
    exact hfg a b hab mid hmid

theorem mono {Q P : α → β → Prop} {x : Run s α} {y : Run s β} (hxy : InStep I Q x y)
    (h : ∀ a b, Q a b → P a b) : InStep I P x y := by
  intro st hst
  obtain ⟨st', hst', hfail | ⟨a, b, hx, hy, hab⟩⟩ := hxy st hst
  · exact ⟨st', hst', .inl hfail⟩
  · exact ⟨st', hst', .inr ⟨a, b, hx, hy, h a b hab⟩⟩

end InStep

end Run

end RecordMap
