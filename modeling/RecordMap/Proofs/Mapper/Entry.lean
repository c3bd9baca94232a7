import RecordMap.Proofs.Nesting.Invocation

/-!
# The entry of a call

Before anything else a call checks that the mapper has the shape, and that a
parameter has the declared type.  `Mapper.rejection?` says which calls are turned
away and why.  A rejected call runs no callback and changes nothing
(`Mapper.invoke_of_rejection`); any other goes on to the routine of its shape.
-/

namespace RecordMap

variable {ω : Type} {σ : Schema}

/-- A construction from a source, with a parameter if there is one. -/
def Invocation.constructFrom (source : Value) : Option Value → Invocation
  | none => .construct source
  | some p => .constructWith source p

/-- An update of a destination from a source, with a parameter if there is one. -/
def Invocation.updateFrom (source : Value) (parameter : Option Value) (destination : Value) :
    Invocation :=
  match parameter with
  | none => .update source destination
  | some p => .updateWith source p destination

/-- The source of a call, if there is one. -/
def Invocation.source? : Invocation → Option Value
  | .construct s | .constructWith s _ | .constructAny s _ | .update s _ | .updateWith s _ _ => some s
  | .constructOption s | .updateOption s _ => s

/-- What comes of a call that is turned away. -/
def Invocation.refused (i : Invocation) (e : MapError) : Outcome :=
  match i.destination? with
  | some d => .updated d (some e)
  | none => .failed e

/-- A fault for which a call is turned away. -/
def MapError.IsRefusal : MapError → Prop
  | shapeNotCompiled .. | parameterType _ | typeMismatch _ => True
  | _ => False

namespace Mapper

variable {m : Mapper} {nest : Nat → Nesting ω} {e : MapError}

/-! ## §1. Rejections -/

/-- The error for a shape that the mapper lacks. -/
def lack? (σ : Schema) (m : Mapper) (shape : Shape) : Option MapError :=
  if m.shapes.contains shape then none else some (m.missing σ shape)

/-- The error for a parameter that is not of the declared type. -/
def misfit? (σ : Schema) (m : Mapper) (parameter : Value) : Option MapError :=
  m.parameter?.bind fun t =>
    if parameter.type = t then none else some (.parameterType (σ.name t))

/-- **Why a call is turned away**, if it is: the shape comes before the parameter. -/
def rejection? (σ : Schema) (m : Mapper) : Invocation → Option MapError
  | .construct _ => m.lack? σ .construct
  | .constructWith _ p => (m.lack? σ .constructWith).or (m.misfit? σ p)
  | .constructOption s => s.bind fun _ => m.lack? σ .construct
  | .constructAny v q =>
      if v.type = .record m.spec.source then
        if m.shapes.contains .constructWith then q.bind (m.misfit? σ) else m.lack? σ .construct
      else some (.typeMismatch (σ.name (.record m.spec.source)))
  | .update _ _ => m.lack? σ .update
  | .updateWith _ p _ => (m.lack? σ .updateWith).or (m.misfit? σ p)
  | .updateOption s _ => s.bind fun _ => m.lack? σ .update

theorem isRefusal_of_lack {shape : Shape} (h : m.lack? σ shape = some e) : e.IsRefusal := by
  unfold lack? at h
  split at h
  · cases h
  · cases h
    exact trivial

theorem isRefusal_of_misfit {p : Value} (h : m.misfit? σ p = some e) : e.IsRefusal := by
  obtain ⟨t, _, h⟩ := Option.bind_eq_some_iff.mp h
  split at h
  · cases h
  · cases h
    exact trivial

/-- A call is turned away for its shape, for its parameter or for its source. -/
theorem isRefusal_of_rejection {i : Invocation} (h : m.rejection? σ i = some e) :
    e.IsRefusal := by
  have hwith : ∀ {shape p}, (m.lack? σ shape).or (m.misfit? σ p) = some e → e.IsRefusal := by
    intro shape p h
    rcases Option.or_eq_some_iff.mp h with h | ⟨_, h⟩
    · exact isRefusal_of_lack h
    · exact isRefusal_of_misfit h
  cases i with
  | construct v => exact isRefusal_of_lack h
  | constructWith v p => exact hwith h
  | constructOption v =>
    obtain ⟨_, _, h⟩ := Option.bind_eq_some_iff.mp h
    exact isRefusal_of_lack h
  | constructAny v q =>
    unfold rejection? at h
    dsimp only at h
    split at h
    · split at h
      · obtain ⟨_, _, h⟩ := Option.bind_eq_some_iff.mp h
        exact isRefusal_of_misfit h
      · exact isRefusal_of_lack h
    · cases h
      exact trivial
  | update v d => exact isRefusal_of_lack h
  | updateWith v p d => exact hwith h
  | updateOption v d =>
    obtain ⟨_, _, h⟩ := Option.bind_eq_some_iff.mp h
    exact isRefusal_of_lack h

theorem demand_eq {s : Type} (shape : Shape) :
    (m.demand σ shape : Run s Unit) =
      match m.lack? σ shape with
      | some e => throw e
      | none => pure () := by
  unfold demand lack?
  split <;> rfl

theorem checkParameter_eq {s : Type} (p : Value) :
    (m.checkParameter σ p : Run s Unit) =
      match m.misfit? σ p with
      | some e => throw e
      | none => pure () := by
  unfold checkParameter misfit?
  cases m.parameter? with
  | none => rfl
  | some t =>
    show _ = match (if p.type = t then none else some _ : Option MapError) with
      | some e => throw e
      | none => pure ()
    dsimp only
    split <;> rfl

/-- A check that finds an error ends the run. -/
theorem demand_bind_of_lack {s α : Type} {shape : Shape} (h : m.lack? σ shape = some e)
    (x : Unit → Run s α) : (m.demand σ shape >>= x) = throw e := by
  rw [demand_eq, h]
  rfl

theorem demand_bind_of_compiled {s α : Type} {shape : Shape} (h : m.lack? σ shape = none)
    (x : Unit → Run s α) : (m.demand σ shape >>= x) = x () := by
  rw [demand_eq, h]
  rfl

theorem checkParameter_bind_of_misfit {s α : Type} {p : Value} (h : m.misfit? σ p = some e)
    (x : Unit → Run s α) : (m.checkParameter σ p >>= x) = throw e := by
  rw [checkParameter_eq, h]
  rfl

theorem checkParameter_bind_of_fit {s α : Type} {p : Value} (h : m.misfit? σ p = none)
    (x : Unit → Run s α) : (m.checkParameter σ p >>= x) = x () := by
  rw [checkParameter_eq, h]
  rfl

/-- Both checks in turn. -/
theorem checks_bind_of_rejection {s α : Type} {shape : Shape} {p : Value}
    (h : (m.lack? σ shape).or (m.misfit? σ p) = some e) (x : Unit → Run s α) :
    (m.demand σ shape >>= fun _ => m.checkParameter σ p >>= x) = throw e := by
  rcases Option.or_eq_some_iff.mp h with h | ⟨hnone, h⟩
  · exact demand_bind_of_lack h _
  · rw [demand_bind_of_compiled hnone]
    exact checkParameter_bind_of_misfit h x

theorem checks_bind_of_admitted {s α : Type} {shape : Shape} {p : Value}
    (h : (m.lack? σ shape).or (m.misfit? σ p) = none) (x : Unit → Run s α) :
    (m.demand σ shape >>= fun _ => m.checkParameter σ p >>= x) = x () := by
  obtain ⟨hlack, hmisfit⟩ := Option.or_eq_none_iff.mp h
  rw [demand_bind_of_compiled hlack]
  exact checkParameter_bind_of_fit hmisfit x

/-- A nested call that is turned away. -/
theorem constructAny_of_rejection {v : Value} {q : Option Value}
    (h : m.rejection? σ (.constructAny v q) = some e) :
    m.constructAny σ nest v q = throw e := by
  unfold rejection? at h
  dsimp only at h
  unfold constructAny
  by_cases hv : v.type = .record m.spec.source
  · rw [Value.as?, if_pos hv]
    simp only [Run.require_some, pure_bind]
    rw [if_pos hv] at h
    cases hwith : m.shapes.contains .constructWith with
    | true =>
      rw [hwith, if_pos rfl] at h
      cases q with
      | some p => exact checkParameter_bind_of_misfit h _
      | none => cases h
    | false =>
      rw [hwith, if_neg (by simp)] at h
      unfold lack? at h
      cases hplain : m.shapes.contains .construct with
      | true =>
        rw [hplain] at h
        cases h
      | false =>
        rw [hplain] at h
        cases h
        cases q <;> rfl
  · rw [if_neg hv] at h
    cases h
    rw [Value.as?, if_neg hv]
    rfl

/-- **A rejected call** runs no callback and changes nothing. -/
theorem invoke_of_rejection {i : Invocation} (h : m.rejection? σ i = some e) (t : Trail ω) :
    m.invoke σ nest i t = (i.refused e, t) := by
  cases i with
  | construct s =>
    have hrun : m.construct σ nest s = throw e := demand_bind_of_lack h _
    show Outcome.constructing (some <$> m.construct σ nest s) t = _
    rw [hrun]
    rfl
  | constructWith s p =>
    have hrun : m.constructWith σ nest s p = throw e := checks_bind_of_rejection h _
    show Outcome.constructing (some <$> m.constructWith σ nest s p) t = _
    rw [hrun]
    rfl
  | constructOption s =>
    cases s with
    | none => cases h
    | some s =>
      have hrun : m.construct σ nest s = throw e := demand_bind_of_lack h _
      show Outcome.constructing (some <$> m.construct σ nest s) t = _
      rw [hrun]
      rfl
  | constructAny v q =>
    show Outcome.constructing (some <$> m.constructAny σ nest v q) t = _
    rw [constructAny_of_rejection h]
    rfl
  | update s d =>
    have hrun : m.update σ nest s = throw e := demand_bind_of_lack h _
    show Outcome.updating d (m.update σ nest s) t = _
    rw [hrun]
    rfl
  | updateWith s p d =>
    have hrun : m.updateWith σ nest s p = throw e := checks_bind_of_rejection h _
    show Outcome.updating d (m.updateWith σ nest s p) t = _
    rw [hrun]
    rfl
  | updateOption s d =>
    cases s with
    | none => cases h
    | some s =>
      have hrun : m.update σ nest s = throw e := demand_bind_of_lack h _
      show Outcome.updating d (m.update σ nest s) t = _
      rw [hrun]
      rfl

/-! ## §2. Admitted calls -/

/-- **A construction that is admitted** is one by the routine of the specification. -/
theorem invoke_constructFrom {s : Value} {q : Option Value}
    (h : m.rejection? σ (.constructFrom s q) = none) (t : Trail ω) :
    m.invoke σ nest (.constructFrom s q) t =
      Outcome.constructing (some <$> m.spec.construct σ nest q s) t := by
  cases q with
  | none =>
    have hrun : m.construct σ nest s = m.spec.construct σ nest none s := demand_bind_of_compiled h _
    show Outcome.constructing (some <$> m.construct σ nest s) t = _
    rw [hrun]
  | some p =>
    have hrun : m.constructWith σ nest s p = m.spec.construct σ nest (some p) s :=
      checks_bind_of_admitted h _
    show Outcome.constructing (some <$> m.constructWith σ nest s p) t = _
    rw [hrun]

/-- **An update that is admitted** is one by the routine of the specification. -/
theorem invoke_updateFrom {s d : Value} {q : Option Value}
    (h : m.rejection? σ (.updateFrom s q d) = none) (t : Trail ω) :
    m.invoke σ nest (.updateFrom s q d) t =
      Outcome.updating d (m.spec.update σ nest q s) t := by
  cases q with
  | none =>
    have hrun : m.update σ nest s = m.spec.update σ nest none s := demand_bind_of_compiled h _
    show Outcome.updating d (m.update σ nest s) t = _
    rw [hrun]
  | some p =>
    have hrun : m.updateWith σ nest s p = m.spec.update σ nest (some p) s :=
      checks_bind_of_admitted h _
    show Outcome.updating d (m.updateWith σ nest s p) t = _
    rw [hrun]

/-- **The parameter taken from a call**: a nested call drops it if the mapper lacks the
shape for it. -/
def taken (m : Mapper) : Invocation → Option Value
  | .constructWith _ p | .updateWith _ p _ => some p
  | .constructAny _ q => if m.shapes.contains .constructWith then q else none
  | .construct _ | .constructOption _ | .update _ _ | .updateOption _ _ => none

/-- The routine of the specification that a call with a source goes on to. -/
def routine (σ : Schema) (m : Mapper) (nest : Nat → Nesting ω) (i : Invocation) (s : Value)
    (t : Trail ω) : Outcome × Trail ω :=
  match i.destination? with
  | none => Outcome.constructing (some <$> m.spec.construct σ nest (m.taken i) s) t
  | some d => Outcome.updating d (m.spec.update σ nest (m.taken i) s) t

/-- A nested call that is admitted. -/
theorem constructAny_of_admitted {v : Value} {q : Option Value}
    (h : m.rejection? σ (.constructAny v q) = none) :
    m.constructAny σ nest v q = m.spec.construct σ nest (m.taken (.constructAny v q)) v := by
  unfold rejection? at h
  unfold taken constructAny
  dsimp only at h ⊢
  by_cases hv : v.type = .record m.spec.source
  · rw [Value.as?, if_pos hv]
    rw [if_pos hv] at h
    simp only [Run.require_some, pure_bind]
    cases hwith : m.shapes.contains .constructWith with
    | true =>
      rw [hwith, if_pos rfl] at h
      cases q with
      | some p => exact checkParameter_bind_of_fit h _
      | none =>
        -- Without a parameter both shapes run the same routine.
        cases m.shapes.contains .construct <;> rfl
    | false =>
      rw [hwith, if_neg (by simp)] at h
      unfold lack? at h
      cases hplain : m.shapes.contains .construct with
      | true => cases q <;> rfl
      | false =>
        rw [hplain] at h
        cases h
  · rw [if_neg hv] at h
    cases h

/-- **An admitted call** with a source goes on to the routine of the specification. -/
theorem invoke_of_admitted {i : Invocation} (h : m.rejection? σ i = none) {s : Value}
    (hs : i.source? = some s) (t : Trail ω) : m.invoke σ nest i t = m.routine σ nest i s t := by
  cases i with
  | construct v =>
    cases hs
    exact invoke_constructFrom (q := none) h t
  | constructWith v p =>
    cases hs
    exact invoke_constructFrom (q := some p) h t
  | constructOption v =>
    cases v with
    | none => cases hs
    | some v =>
      cases hs
      exact invoke_constructFrom (q := none) h t
  | constructAny v q =>
    cases hs
    show Outcome.constructing (some <$> m.constructAny σ nest s q) t = _
    rw [constructAny_of_admitted h]
    rfl
  | update v d =>
    cases hs
    exact invoke_updateFrom (q := none) h t
  | updateWith v p d =>
    cases hs
    exact invoke_updateFrom (q := some p) h t
  | updateOption v d =>
    cases v with
    | none => cases hs
    | some v =>
      cases hs
      exact invoke_updateFrom (q := none) h t

/-- A call without a source succeeds at once, over any handlers. -/
theorem invoke_of_absent (σ : Schema) (m : Mapper) {i : Invocation} (hs : i.source? = none) :
    ∃ r : Outcome, r.failure? = none ∧
      ∀ {ω : Type} (nest : Nat → Nesting ω) (t : Trail ω), m.invoke σ nest i t = (r, t) := by
  cases i with
  | constructOption v =>
    cases v with
    | some v => cases hs
    | none =>
      refine ⟨.constructed (if (σ.record m.spec.destination).valueAggregate then
        some (Value.zero σ (.record m.spec.destination)) else none), rfl, fun nest t => ?_⟩
      show Outcome.constructing (m.constructOption σ nest none) t = _
      unfold constructOption
      dsimp only
      split <;> rfl
  | updateOption v d =>
    cases v with
    | some v => cases hs
    | none => exact ⟨.updated d none, rfl, fun _ _ => rfl⟩
  | _ => cases hs

/-- The failure of a refused call is the error it is refused with. -/
theorem failure_of_rejection {i : Invocation} (h : m.rejection? σ i = some e) (t : Trail ω) :
    (m.invoke σ nest i t).1.failure? = some e := by
  rw [invoke_of_rejection h]
  show (i.refused e).failure? = some e
  unfold Invocation.refused
  cases i.destination? <;> rfl

end Mapper

end RecordMap
