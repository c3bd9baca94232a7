import RecordMap.Proofs.Owner.History

/-!
# Direct calls

A nested call goes through an entry of its own that selects a shape.  What comes of
it is what the owner's own mapper for the pairing gives when it is called directly,
and `Owner.Directly` says by which call: it depends on the shapes of the mapper and
on the parameter handed on, and there is one row for each case.

The rows are exhaustive and exclusive: nesting afresh comes to one of them
(`Owner.directly_nestAfresh`), and to no other (`Owner.Directly.run_nestAfresh`).
Direct calls are those of the owner with a bound of its own (`Owner.within`): one
level further in, the bound is one less.
-/

namespace RecordMap

variable {ω : Type} {σ : Schema}

/-! ## §1. Shapes of a nested call -/

namespace Mapper

variable {m : Mapper} {nest : Nat → Nesting ω} {v w : Value} {q : Option Value}

theorem run_demand {s : Type} {shape : Shape} (h : m.shapes.contains shape = true) :
    (m.demand σ shape : Run s Unit) = pure () := by
  unfold demand
  rw [if_pos h]

/-- A nested call with a parameter is one in the shape that takes it. -/
theorem constructAny_of_constructWith (hv : v.type = .record m.spec.source)
    (h : m.shapes.contains .constructWith = true) :
    m.constructAny σ nest v (some w) = m.constructWith σ nest v w := by
  unfold constructAny constructWith
  rw [run_demand h, Value.as?, if_pos hv]
  simp only [Run.require_some, pure_bind, h]

/-- Without a parameter to use, a nested call is one in the plain shape. -/
theorem constructAny_of_construct (hv : v.type = .record m.spec.source)
    (h : m.shapes.contains .construct = true)
    (hq : q = none ∨ m.shapes.contains .constructWith = false) :
    m.constructAny σ nest v q = m.construct σ nest v := by
  unfold constructAny construct
  rw [run_demand h, Value.as?, if_pos hv]
  rcases hq with rfl | hq
  · simp only [Run.require_some, pure_bind, h]
  · simp only [Run.require_some, pure_bind, h, hq]

/-- A nested call of what is no source of the mapping. -/
theorem constructAny_of_foreign (hv : v.type ≠ .record m.spec.source) :
    m.constructAny σ nest v q = throw (.typeMismatch (σ.name (.record m.spec.source))) := by
  unfold constructAny
  rw [Value.as?, if_neg hv]
  rfl

/-- Without a constructing shape there is no nested call. -/
theorem constructAny_of_neither (hv : v.type = .record m.spec.source)
    (h : m.shapes.contains .construct = false) (hw : m.shapes.contains .constructWith = false) :
    m.constructAny σ nest v q = throw (m.missing σ .construct) := by
  unfold constructAny
  rw [Value.as?, if_pos hv]
  simp only [Run.require_some, pure_bind, h, hw]

end Mapper

/-- The outcome of a construction tells its result. -/
theorem Outcome.ofConstruct_injective {r r' : Except MapError Value}
    (h : ofConstruct (some <$> r) = ofConstruct (some <$> r')) : r = r' := by
  cases r <;> cases r' <;> cases h <;> rfl

namespace Owner

variable {o : Owner} {s : State} {id : Nat} {p : Pairing} {m : Mapper} {v : Value}
  {q : Option Value} {r : Except MapError Value}

/-! ## §2. Direct calls -/

/-- The owner with another bound on nesting. -/
def within (o : Owner) (limit : Nat) : Owner := { o with nestingLimit := limit }

theorem within_nestAfresh (o : Owner) (limit : Nat) :
    ∀ k, ((o.within limit).nestAfresh k : Nesting ω) = o.nestAfresh k := by
  intro k
  induction k with
  | zero => rfl
  | succ k ih =>
    funext p v q
    rw [nestAfresh, nestAfresh, ih]
    rfl

theorem Consistent.within (h : o.Consistent s) (limit : Nat) : (o.within limit).Consistent s :=
  ⟨h.compiled, h.registered, h.linked⟩

/-- **What a nested call comes to, by direct calls** of the owner in a state: `v` is
the value and `q` the parameter handed on. -/
inductive Directly (o : Owner) (s : State) (p : Pairing) (v : Value) (q : Option Value) :
    Except MapError Value → Prop where
  /-- Nothing is configured for the pairing. -/
  | missing (hnone : o.choose? p = none)
      (hcall : ∀ i, (o.call p i { outside := s }).1 = .error (.notRegistered (p.name o.schema))) :
      Directly o s p v q (.error (.nestedMapperMissing (p.name o.schema)))
  /-- The mapping does not resolve. -/
  | unresolved {c : Config} {e : BuildError} (hsome : o.choose? p = some c)
      (hcall : ∀ i, (o.call p i { outside := s }).1 = .error e) :
      Directly o s p v q (.error (.build e))
  /-- The value is no source of the pairing. -/
  | foreign {m : Mapper} (hm : o.mapperOf p = .ok m) (hv : v.type ≠ p.source) :
      Directly o s p v q (.error (.typeMismatch (o.schema.name p.source)))
  /-- A parameter is handed on, and the mapper takes it. -/
  | constructWith {m : Mapper} {w : Value} {r : Except MapError Value} (hm : o.mapperOf p = .ok m)
      (hv : v.type = p.source) (hq : q = some w) (hshape : m.shapes.contains .constructWith = true)
      (hcall : (o.call p (.constructWith v w) { outside := s }).1 =
        .ok (.ofConstruct (some <$> r))) :
      Directly o s p v q r
  /-- No parameter is handed on, or the mapper takes none. -/
  | construct {m : Mapper} {r : Except MapError Value} (hm : o.mapperOf p = .ok m)
      (hv : v.type = p.source) (hq : q = none ∨ m.shapes.contains .constructWith = false)
      (hshape : m.shapes.contains .construct = true)
      (hcall : (o.call p (.construct v) { outside := s }).1 = .ok (.ofConstruct (some <$> r))) :
      Directly o s p v q r
  /-- The mapper takes a parameter only, and none is handed on. -/
  | bare {m : Mapper} {r : Except MapError Value} (hm : o.mapperOf p = .ok m)
      (hv : v.type = p.source) (hq : q = none) (hplain : m.shapes.contains .construct = false)
      (hshape : m.shapes.contains .constructWith = true)
      (hcall : (o.call p (.constructAny v none) { outside := s }).1 =
        .ok (.ofConstruct (some <$> r))) :
      Directly o s p v q r
  /-- The mapper has no constructing shape. -/
  | shapeless {m : Mapper} (hm : o.mapperOf p = .ok m) (hv : v.type = p.source)
      (hplain : m.shapes.contains .construct = false)
      (hwith : m.shapes.contains .constructWith = false) :
      Directly o s p v q (.error (.shapeNotCompiled Shape.construct.name (p.plain.name o.schema)))

/-- A configuration that does not resolve is invalid. -/
theorem nestedError_of_compile {c : Config} {e : BuildError} (h : (o.compile c).1 = .error e) :
    nestedError e = .build e := by
  unfold compile at h
  dsimp only at h
  rcases hresult : (c.resolve o.schema o.defaults { pair := c.pairing.name o.schema }).result
    with e' | spec
  · rw [hresult] at h
    cases h
    rw [Config.resolve_error hresult]
    rfl
  · rw [hresult] at h
    cases h

theorem call_of_error {e : BuildError} (h : o.Consistent s) (halive : s.alive = true)
    (hp : o.mapperOf p = .error e) (i : Invocation) : (o.call p i { outside := s }).1 = .error e := by
  rw [(call_spec h halive p i).1]
  unfold callAfresh
  rw [hp]

theorem call_of_ok (h : o.Consistent s) (halive : s.alive = true) (hp : o.mapperOf p = .ok m)
    {i : Invocation} {x : Run (Trail Unit) Value}
    (hi : m.invoke o.schema (fun _ => o.nestAfresh o.nestingLimit) i { outside := () } =
      Outcome.constructing (some <$> x) { outside := () }) :
    (o.call p i { outside := s }).1 = .ok (.ofConstruct (some <$> (x.run { outside := () }).1)) := by
  rw [(call_spec h halive p i).1]
  unfold callAfresh
  rw [hp]
  show Except.ok (m.invoke o.schema _ i { outside := () }).1 = _
  rw [hi]
  show Except.ok (Outcome.ofConstruct ((some <$> x).run _).1) = _
  rw [Run.map_eq_bind, Run.run_bind]
  rcases x.run { outside := () } with ⟨_ | _, _⟩ <;> rfl

theorem source_of_mapperOf (hp : o.mapperOf p = .ok m) : .record m.spec.source = p.source := by
  obtain ⟨_, _, _, hsource, _⟩ := compiled_of_mapperOf hp
  exact hsource

theorem missing_of_mapperOf (hp : o.mapperOf p = .ok m) :
    m.missing o.schema .construct =
      .shapeNotCompiled Shape.construct.name (p.plain.name o.schema) := by
  obtain ⟨_, _, _, hsource, hdest⟩ := compiled_of_mapperOf hp
  have hplain : m.spec.pairing.plain = p.plain := by
    unfold Specification.pairing Pairing.plain
    rw [hsource, hdest]
  unfold Mapper.missing
  rw [hplain]

/-- What the direct calls say of a nested call is what nesting afresh gives, one
level further in. -/
theorem Directly.run_nestAfresh (h : o.Consistent s) (halive : s.alive = true)
    (hdirect : o.Directly s p v q r) :
    ((o.nestAfresh (o.nestingLimit + 1) p v q).run ({ outside := () } : Trail Unit)).1 = r := by
  cases hdirect with
  | missing hnone hcall =>
    have hp : o.mapperOf p = .error (.notRegistered (p.name o.schema)) := by
      unfold mapperOf
      rw [hnone]
    rw [nestAfresh_of_error hp]
    rfl
  | @unresolved c e hsome hcall =>
    -- Any direct call shows the error, so take one of them.
    have hp := mapperOf_of_choose? hsome
    have hfirst := hcall (.construct v)
    cases hc : (o.compile c).1 with
    | error e' =>
      rw [hc] at hp
      rw [call_of_error h halive hp] at hfirst
      cases hfirst
      rw [nestAfresh_of_error hp, nestedError_of_compile hc]
      rfl
    | ok m =>
      rw [hc] at hp
      rw [call_of_ok h halive hp rfl] at hfirst
      cases hfirst
  | foreign hm hv =>
    rw [← source_of_mapperOf hm] at hv ⊢
    rw [nestAfresh_of_ok hm, Mapper.constructAny_of_foreign hv]
    rfl
  | constructWith hm hv hq hshape hcall =>
    rw [← source_of_mapperOf hm] at hv
    subst hq
    rw [call_of_ok h halive hm rfl] at hcall
    rw [nestAfresh_of_ok hm, Mapper.constructAny_of_constructWith hv hshape]
    exact Outcome.ofConstruct_injective (Except.ok.inj hcall)
  | construct hm hv hq hshape hcall =>
    rw [← source_of_mapperOf hm] at hv
    rw [call_of_ok h halive hm rfl] at hcall
    rw [nestAfresh_of_ok hm, Mapper.constructAny_of_construct hv hshape hq]
    exact Outcome.ofConstruct_injective (Except.ok.inj hcall)
  | bare hm hv hq hplain hshape hcall =>
    subst hq
    rw [call_of_ok h halive hm rfl] at hcall
    rw [nestAfresh_of_ok hm]
    exact Outcome.ofConstruct_injective (Except.ok.inj hcall)
  | shapeless hm hv hplain hwith =>
    rw [← source_of_mapperOf hm] at hv
    rw [nestAfresh_of_ok hm, Mapper.constructAny_of_neither hv hplain hwith, missing_of_mapperOf hm]
    rfl

/-- **Nesting afresh comes to the direct call**, and which one depends on the shapes
of the mapper and on the parameter handed on. -/
theorem directly_nestAfresh (h : o.Consistent s) (halive : s.alive = true) (p : Pairing)
    (v : Value) (q : Option Value) :
    o.Directly s p v q
      ((o.nestAfresh (o.nestingLimit + 1) p v q).run ({ outside := () } : Trail Unit)).1 := by
  cases hp : o.mapperOf p with
  | error e =>
    rw [nestAfresh_of_error hp]
    have hcall := call_of_error h halive hp
    unfold mapperOf at hp
    -- The request fails: nothing is configured, or the mapping does not resolve.
    cases hc : o.choose? p with
    | none =>
      rw [hc] at hp
      cases hp
      exact .missing hc hcall
    | some c =>
      rw [hc] at hp
      show o.Directly s p v q (.error (nestedError e))
      rw [nestedError_of_compile hp]
      exact .unresolved hc hcall
  | ok m =>
    have hsource := source_of_mapperOf hp
    rw [nestAfresh_of_ok hp]
    by_cases hv : v.type = p.source
    -- The rows of the table: first the parameter, then the plain shape.
    · have hv' := hv.trans hsource.symm
      cases hwith : m.shapes.contains .constructWith with
      | true =>
        cases q with
        | some w =>
          rw [Mapper.constructAny_of_constructWith hv' hwith]
          exact .constructWith hp hv rfl hwith (call_of_ok h halive hp rfl)
        | none =>
          cases hplain : m.shapes.contains .construct with
          | true =>
            rw [Mapper.constructAny_of_construct hv' hplain (.inl rfl)]
            exact .construct hp hv (.inl rfl) hplain (call_of_ok h halive hp rfl)
          | false => exact .bare hp hv rfl hplain hwith (call_of_ok h halive hp rfl)
      | false =>
        cases hplain : m.shapes.contains .construct with
        | true =>
          rw [Mapper.constructAny_of_construct hv' hplain (.inr hwith)]
          exact .construct hp hv (.inr hwith) hplain (call_of_ok h halive hp rfl)
        | false =>
          rw [Mapper.constructAny_of_neither hv' hplain hwith, missing_of_mapperOf hp]
          exact .shapeless hp hv hplain hwith
    · have hv' := hv
      rw [← hsource] at hv'
      rw [Mapper.constructAny_of_foreign hv', hsource]
      exact .foreign hp hv

end Owner

end RecordMap
