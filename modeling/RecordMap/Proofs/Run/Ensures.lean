import RecordMap.Callback

/-!
# What a run ensures

Callbacks, conversions and mappers are all runs: computations over a state that
may fail and then keep the state they reached.  This module has the equations of
runs and a logic for one run at a time.

`Run.Ensures I Q F x` says that `x` keeps the invariant `I` of its state, whether
it succeeds or fails, that its value satisfies `Q` and its error `F`.  There is
one rule for each way a run is put together, so that a proof about a run follows
its text.

A relation of runs that sequencing keeps holds of traversals as well
(`Run.Sequential`).
-/

namespace RecordMap

namespace Run

variable {ε s t α β : Type}

/-! ## §1. Equations of runs

These hold for any type of failures: the search for a plan is a run that fails
with a fate. -/

@[simp] theorem run_pure (a : α) (st : s) :
    (pure a : ExceptT ε (StateM s) α).run st = (.ok a, st) := rfl

@[simp] theorem run_throw (e : ε) (st : s) :
    (throw e : ExceptT ε (StateM s) α).run st = (.error e, st) := rfl

@[simp] theorem run_get (st : s) : (get : ExceptT ε (StateM s) s).run st = (.ok st, st) := rfl

@[simp] theorem run_set (st' st : s) :
    (set st' : ExceptT ε (StateM s) PUnit).run st = (.ok .unit, st') := rfl

@[simp] theorem run_modify (f : s → s) (st : s) :
    (modify f : ExceptT ε (StateM s) PUnit).run st = (.ok .unit, f st) := rfl

/-- The second run starts where the first one ended; a failure of the first is
the failure of both. -/
theorem run_bind (x : ExceptT ε (StateM s) α) (f : α → ExceptT ε (StateM s) β) (st : s) :
    (x >>= f).run st =
      match x.run st with
      | (.ok a, st') => (f a).run st'
      | (.error e, st') => (.error e, st') := by
  show (match x.run st with | (r, st') => ExceptT.bindCont f r st') = _
  generalize x.run st = r
  rcases r with ⟨_ | _, _⟩ <;> rfl

theorem run_bind_ok {x : ExceptT ε (StateM s) α} {f : α → ExceptT ε (StateM s) β} {st st' : s}
    {a : α} (h : x.run st = (.ok a, st')) : (x >>= f).run st = (f a).run st' := by
  rw [run_bind, h]

theorem run_bind_error {x : ExceptT ε (StateM s) α} {f : α → ExceptT ε (StateM s) β} {st st' : s}
    {e : ε} (h : x.run st = (.error e, st')) : (x >>= f).run st = (.error e, st') := by
  rw [run_bind, h]

/-- A success of two runs is a success of each. -/
theorem bind_ok {x : ExceptT ε (StateM s) α} {f : α → ExceptT ε (StateM s) β} {st st' : s} {b : β}
    (h : (x >>= f).run st = (.ok b, st')) :
    ∃ a st₁, x.run st = (.ok a, st₁) ∧ (f a).run st₁ = (.ok b, st') := by
  rcases hx : x.run st with ⟨e | a, st₁⟩
  · rw [run_bind_error hx] at h
    cases h
  · rw [run_bind_ok hx] at h
    exact ⟨a, st₁, rfl, h⟩

/-- A failure of two runs is one of the first, or one of the second after it. -/
theorem bind_error {x : ExceptT ε (StateM s) α} {f : α → ExceptT ε (StateM s) β} {st st' : s}
    {e : ε} (h : (x >>= f).run st = (.error e, st')) :
    x.run st = (.error e, st') ∨
      ∃ a st₁, x.run st = (.ok a, st₁) ∧ (f a).run st₁ = (.error e, st') := by
  rcases hx : x.run st with ⟨e' | a, st₁⟩
  · rw [run_bind_error hx] at h
    cases h
    exact .inl rfl
  · rw [run_bind_ok hx] at h
    exact .inr ⟨a, st₁, rfl, h⟩

theorem map_eq_bind (f : α → β) (x : ExceptT ε (StateM s) α) :
    f <$> x = x >>= fun a => pure (f a) := rfl

/-- A success of a mapped run is a success of the run. -/
theorem map_ok {f : α → β} {x : ExceptT ε (StateM s) α} {st st' : s} {b : β}
    (h : (f <$> x).run st = (.ok b, st')) : ∃ a, x.run st = (.ok a, st') ∧ b = f a := by
  rw [map_eq_bind] at h
  obtain ⟨a, _, hx, hpure⟩ := bind_ok h
  cases hpure
  exact ⟨a, hx, rfl⟩

/-- Mapping the values of a traversal is a traversal followed by the map; it gives
one value for each element. -/
theorem mapM_ok {f : α → ExceptT ε (StateM s) β} {g : β → t} {as : List α} {out : List t}
    {st st' : s} (h : (as.mapM fun a => do return g (← f a)).run st = (.ok out, st')) :
    ∃ bs, (as.mapM f).run st = (.ok bs, st') ∧ out = bs.map g ∧ bs.length = as.length := by
  induction as generalizing out st with
  | nil =>
    rw [List.mapM_nil] at h
    cases h
    exact ⟨[], rfl, rfl, rfl⟩
  | cons a as ih =>
    rw [List.mapM_cons] at h
    obtain ⟨_, st₁, ha, h⟩ := bind_ok h
    obtain ⟨b, hb, rfl⟩ := map_ok ha
    obtain ⟨_, st₂, has, h⟩ := bind_ok h
    cases h
    obtain ⟨bs, hbs, rfl, hlen⟩ := ih has
    refine ⟨b :: bs, ?_, rfl, by simp [hlen]⟩
    rw [List.mapM_cons, run_bind_ok hb, run_bind_ok hbs]
    rfl

/-- **The first failure of a traversal**: the elements before it succeed, and it
is what the traversal fails with. -/
theorem mapM_error_iff {f : α → ExceptT ε (StateM s) β} {as : List α} {e : ε} {st st' : s} :
    (as.mapM f).run st = (.error e, st') ↔
      ∃ before a after bs mid, as = before ++ a :: after ∧
        (before.mapM f).run st = (.ok bs, mid) ∧ (f a).run mid = (.error e, st') := by
  constructor
  · intro h
    induction as generalizing st with
    | nil => cases h
    | cons a as ih =>
      rw [List.mapM_cons] at h
      rcases bind_error h with ha | ⟨b, st₁, hb, h⟩
      · exact ⟨[], a, as, [], st, rfl, rfl, ha⟩
      · rcases bind_error h with has | ⟨_, _, _, hpure⟩
        · obtain ⟨before, c, after, bs, mid, rfl, hbefore, hc⟩ := ih has
          refine ⟨a :: before, c, after, b :: bs, mid, rfl, ?_, hc⟩
          rw [List.mapM_cons, run_bind_ok hb, run_bind_ok hbefore]
          rfl
        · cases hpure
  · rintro ⟨before, a, after, bs, mid, rfl, hbefore, ha⟩
    rw [List.mapM_append, run_bind_ok hbefore, List.mapM_cons,
      run_bind_error (run_bind_error ha)]

theorem forM_cons (f : α → ExceptT ε (StateM s) PUnit) (a : α) (as : List α) :
    (a :: as).forM f = f a >>= fun _ => as.forM f := rfl

/-! ## §2. Traversals -/

/-- **A relation of runs that sequencing keeps**: runs that only give the same value are
related, and so are two runs in a row if their parts are. -/
structure Sequential {m n : Type → Type} [Monad m] [Monad n]
    (T : (α : Type) → m α → n α → Prop) : Prop where
  pure {α : Type} (a : α) : T α (pure a) (pure a)
  bind {α β : Type} {x : m α} {y : n α} {f : α → m β} {g : α → n β} (start : T α x y)
    (rest : ∀ a, T β (f a) (g a)) : T β (x >>= f) (y >>= g)

namespace Sequential

variable {m n : Type → Type} [Monad m] [Monad n] {T : (α : Type) → m α → n α → Prop}
  {as : List α}

/-- **Traversals are related** if what is done for each element is. -/
theorem mapM [LawfulMonad m] [LawfulMonad n] (h : Sequential T) {f : α → m β} {g : α → n β}
    (hfg : ∀ a ∈ as, T β (f a) (g a)) : T (List β) (as.mapM f) (as.mapM g) := by
  induction as with
  | nil =>
    rw [List.mapM_nil, List.mapM_nil]
    exact h.pure []
  | cons a as ih =>
    rw [List.mapM_cons, List.mapM_cons]
    obtain ⟨ha, has⟩ := List.forall_mem_cons.mp hfg
    exact h.bind ha fun b => h.bind (ih has) fun bs => h.pure (b :: bs)

theorem forM (h : Sequential T) {f : α → m PUnit} {g : α → n PUnit}
    (hfg : ∀ a ∈ as, T PUnit (f a) (g a)) : T PUnit (as.forM f) (as.forM g) := by
  induction as with
  | nil => exact h.pure PUnit.unit
  | cons a as ih =>
    obtain ⟨ha, has⟩ := List.forall_mem_cons.mp hfg
    exact h.bind ha fun _ => ih has

/-- Runs that are the same stay so. -/
theorem eq : Sequential fun α (x : m α) (y : m α) => x = y where
  pure _ := rfl
  bind hxy hfg := by rw [hxy, funext hfg]

end Sequential

/-! ## §3. The logic -/

/-- A result has a value or an error of the wanted kind. -/
def Result (Q : α → Prop) (F : ε → Prop) : Except ε α → Prop
  | .ok a => Q a
  | .error e => F e

/-- Without a wish any result will do. -/
theorem result_any (r : Except ε α) : Result (fun _ => True) (fun _ => True) r := by
  cases r <;> exact trivial

/-- **What a run ensures**: from a state with the invariant it reaches one with
the invariant, and its result is of the wanted kind. -/
def Ensures (I : s → Prop) (Q : α → Prop) (F : ε → Prop) (x : ExceptT ε (StateM s) α) : Prop :=
  ∀ st, I st → I (x.run st).2 ∧ Result Q F (x.run st).1

namespace Ensures

variable {I : s → Prop} {J : t → Prop} {F : ε → Prop}

theorem pure {Q : α → Prop} {a : α} (h : Q a) : Ensures I Q F (pure a) := by
  intro st hst
  exact ⟨hst, h⟩

theorem throw {Q : α → Prop} {e : ε} (h : F e) : Ensures I Q F (throw e) := by
  intro st hst
  exact ⟨hst, h⟩

theorem get : Ensures I I F get := by
  intro st hst
  exact ⟨hst, hst⟩

theorem modify {f : s → s} (h : ∀ st, I st → I (f st)) :
    Ensures I (fun _ => True) F (modify f) := by
  intro st hst
  exact ⟨h st hst, trivial⟩

theorem bind {Q : α → Prop} {P : β → Prop} {x : ExceptT ε (StateM s) α}
    {f : α → ExceptT ε (StateM s) β}
    (hx : Ensures I Q F x) (hf : ∀ a, Q a → Ensures I P F (f a)) :
    Ensures I P F (x >>= f) := by
  intro st hst
  obtain ⟨hkeep, hres⟩ := hx st hst
  rcases hrun : x.run st with ⟨e | a, st'⟩
  · rw [hrun] at hkeep hres
    rw [run_bind_error hrun]
    exact ⟨hkeep, hres⟩
  · rw [hrun] at hkeep hres
    rw [run_bind_ok hrun]
    exact hf a hres st' hkeep

theorem mono {Q P : α → Prop} {x : ExceptT ε (StateM s) α} (hx : Ensures I Q F x)
    (h : ∀ a, Q a → P a) : Ensures I P F x := by
  intro st hst
  obtain ⟨hkeep, hres⟩ := hx st hst
  refine ⟨hkeep, ?_⟩
  cases hr : (x.run st).1 with
  | error e => rw [hr] at hres; exact hres
  | ok a => rw [hr] at hres; exact h a hres

theorem map {Q : α → Prop} {P : β → Prop} {x : ExceptT ε (StateM s) α} {f : α → β}
    (hx : Ensures I Q F x) (h : ∀ a, Q a → P (f a)) : Ensures I P F (f <$> x) := by
  rw [map_eq_bind]
  exact hx.bind fun a ha => pure (h a ha)

theorem require {F : MapError → Prop} {Q : α → Prop} {o : Option α} {e : MapError}
    (hsome : ∀ a, o = some a → Q a) (hnone : o = none → F e) :
    Ensures I Q F (require o e) := by
  cases o with
  | some a => exact pure (hsome a rfl)
  | none => exact throw (hnone rfl)

/-- A run on a part of the state keeps the invariant of the whole if it keeps
that of the part. -/
theorem zoom {F : MapError → Prop} {Q : α → Prop} {x : Run t α} {get : s → t} {put : s → t → s}
    (hx : Ensures J Q F x) (hget : ∀ st, I st → J (get st))
    (hput : ∀ st u, I st → J u → I (put st u)) : Ensures I Q F (zoom get put x) := by
  intro st hst
  obtain ⟨hkeep, hres⟩ := hx (get st) (hget st hst)
  rw [run_zoom]
  exact ⟨hput st _ hst hkeep, hres⟩

/-- Every element of a list, in turn: every value is of the wanted kind. -/
theorem mapM {Q : β → Prop} {f : α → ExceptT ε (StateM s) β} {as : List α}
    (h : ∀ a ∈ as, Ensures I Q F (f a)) :
    Ensures I (fun bs => ∀ b ∈ bs, Q b) F (as.mapM f) := by
  induction as with
  | nil =>
    rw [List.mapM_nil]
    exact pure (by simp)
  | cons a as ih =>
    rw [List.mapM_cons]
    refine (h a (by simp)).bind fun b hb => ?_
    refine (ih fun a' ha' => h a' (List.mem_cons_of_mem _ ha')).bind fun bs hbs => pure ?_
    intro b' hb'
    rcases List.mem_cons.mp hb' with rfl | hmem
    · exact hb
    · exact hbs b' hmem

/-- An invariant is kept in a row; there is nothing to compare with. -/
theorem sequential (I : s → Prop) (F : ε → Prop) :
    Sequential fun α (x : ExceptT ε (StateM s) α) (_ : Id α) =>
      Ensures I (fun _ => True) F x where
  pure _ := pure trivial
  bind hx hf := hx.bind fun a _ => hf a

theorem forM {f : α → ExceptT ε (StateM s) PUnit} {as : List α}
    (h : ∀ a ∈ as, Ensures I (fun _ => True) F (f a)) :
    Ensures I (fun _ => True) F (as.forM f) :=
  (sequential I F).forM (g := fun _ => .unit) h

end Ensures

end Run

end RecordMap
