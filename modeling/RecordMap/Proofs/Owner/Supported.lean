import RecordMap.Proofs.Owner.History
import RecordMap.Proofs.Owner.Tour
import RecordMap.Proofs.Plan.Structure

/-!
# No cast is unsupported

The plan of a mapping that resolves has been found by the search for conversions, so it casts
along pairs of primitives only that the table joins (`Config.Resolved.supported`).  Run on any
values, such a mapping never fails for want of a path in the table; neither do the mappings
nested in it, at any depth (`Owner.confined_nest`).

Nothing is asked of the callbacks: a callback that fails, or gives a value of the wrong type,
has errors of its own.
-/

namespace RecordMap

variable {ω : Type} {σ : Schema} {c : Config} {d : Defaults} {spec : Specification}

/-! ## §1. Plans -/

/-- What a mapping searches with finds supported conversions. -/
theorem Config.Searches.supported {find : Ty → Ty → Option Conversion} (h : c.Searches d find)
    {a b : Ty} {conversion : Conversion} (hfound : find a b = some conversion) :
    conversion.Supported := by
  rcases h with rfl | ⟨profile, rfl⟩
  · exact Scope.supported_resolve hfound
  · exact Scope.supported_nesting hfound

/-- **A mapping that resolves** has a supported plan. -/
theorem Config.Resolved.supported (h : c.Resolved σ d spec) : spec.Supported := by
  intro m hm conversion hconversion
  cases hread : m.production with
  | constant v =>
    rw [hread] at hconversion
    cases hconversion
  | read a k sentinel =>
    rw [hread] at hconversion
    cases hconversion
    obtain ⟨find, hsearches, hfound⟩ := (h.read hm hread).1.searched
    exact hsearches.supported hfound

/-! ## §2. Runs -/

/-- Handlers whose failures are none of an unsupported cast. -/
def Nesting.Supported (nest : Nesting ω) : Prop :=
  ∀ p v handedOn (t : Trail ω) e, ((nest p v handedOn).run t).1 = .error e → ¬e.IsUnsupported

theorem Nesting.Supported.confined {nest : Nesting ω} (h : nest.Supported) (p : Pairing)
    (v : Value) (handedOn : Option Value) :
    Trail.Confined (fun _ => True) (fun e => ¬e.IsUnsupported) (nest p v handedOn) := by
  intro t _
  refine ⟨trivial, ?_⟩
  cases hr : ((nest p v handedOn).run t).1 with
  | ok w => exact trivial
  | error e => exact h p v handedOn t e hr

/-- A lack of a parameter is no fault of a cast. -/
theorem Supplied.of_supported {parameter : Option Value} {t : Ty} :
    Supplied σ (fun e => ¬e.IsUnsupported) parameter t := by
  intro _
  exact MapError.not_isUnsupported_of_ne (by simp)

theorem not_isUnsupported_of_refusal {e : MapError} (h : e.IsRefusal) : ¬e.IsUnsupported := by
  refine MapError.not_isUnsupported_of_ne fun _ _ _ he => ?_
  subst he
  exact h

theorem not_isUnsupported_of_loss {e : MapError} (h : e.IsLoss) : ¬e.IsUnsupported := by
  refine MapError.not_isUnsupported_of_ne fun _ _ _ he => ?_
  subst he
  exact h

/-- **A supported conversion** never fails as unsupported, whatever it is run on. -/
theorem Conversion.Supported.run {k : Conversion} (hk : k.Supported) {nest : Nesting ω}
    (hnest : nest.Supported) {parameter handedOn : Option Value} {v : Value} {call : Call ω}
    {e : MapError} (h : ((k.run σ parameter handedOn nest v).run call).1 = .error e) :
    ¬e.IsUnsupported := by
  have hconfined : Call.Confined (fun _ => True) (fun e => ¬e.IsUnsupported)
      (k.run σ parameter handedOn nest v) :=
    k.confined_run_of_casts (fun e _ he => he) v (.inl hk) (fun _ _ => .of_supported)
      fun p _ w _ => hnest.confined p w handedOn
  obtain ⟨-, hresult⟩ := hconfined call trivial
  rw [h] at hresult
  exact hresult

/-- **A supported mapping** never fails as unsupported, whatever it is invoked with. -/
theorem Specification.Supported.invoke (hspec : spec.Supported) {nest : Nat → Nesting ω}
    (hnest : ∀ j, (nest j).Supported) {i : Invocation} {t : Trail ω} {e : MapError}
    (h : ((Mapper.mk spec).invoke σ nest i t).1.failure? = some e) : ¬e.IsUnsupported := by
  have hconfined := (Mapper.mk spec).confined_invoke_of_casts (K := fun _ : ω => True) (σ := σ)
    (i := i) (fun e _ he => he) (.inl hspec)
    (fun e he => not_isUnsupported_of_refusal (Mapper.isRefusal_of_rejection he))
    (fun _ _ _ => .of_supported) (fun _ _ j p w _ => (hnest j).confined p w _) (t := t) trivial
  exact hconfined.1 e h

namespace Owner

variable {o : Owner} {id : Nat} {m : Mapper} {t : Trail State} {i : Invocation}

/-! ## §3. Owners -/

/-- **Nested calls** never fail as unsupported, at any depth.  The induction is on the depth
that is left; a call one level further in is that of a mapper of the owner. -/
theorem confined_nest (o : Owner) (limit id j : Nat) (p : Pairing) (v : Value) (q : Option Value) :
    Trail.Confined (State.Compiled o) (fun e => ¬e.IsUnsupported) (o.nest limit id j p v q) := by
  induction limit generalizing id j p v q with
  | zero =>
    exact .throw (MapError.not_isUnsupported_of_ne (by simp))
  | succ limit ih =>
    unfold nest
    refine (ensures_follow (fun _ => not_isUnsupported_of_loss) (id, j) p).bind fun child _ => ?_
    refine (ensures_mapper (fun _ => not_isUnsupported_of_loss) child).bind fun m hm => ?_
    obtain ⟨c, -, hcompile⟩ := hm
    exact m.confined_constructAny_of_casts (fun e _ he => he) v q
      (.inl (resolved_of_compile hcompile).supported) (fun _ => not_isUnsupported_of_refusal)
      (fun _ _ => .of_supported) fun j p w _ => ih child j p w _

/-- **An invocation** never fails as unsupported. -/
theorem not_isUnsupported_of_invoke (h : t.outside.Compiled o) {e : MapError}
    (he : (o.invoke id i t).1.failure? = some e) : ¬e.IsUnsupported := by
  cases hm : mapper? t.outside id with
  | none =>
    rw [invoke_of_missing hm] at he
    have hdropped : e = .ownerDropped := by
      unfold lost at he
      split at he <;> (cases he; rfl)
    exact not_isUnsupported_of_loss (hdropped ▸ trivial)
  | some m =>
    rw [invoke_eq hm] at he
    obtain ⟨c, -, hcompile⟩ := h id m hm
    have hconfined := m.confined_invoke_of_casts (K := State.Compiled o) (σ := o.schema) (i := i)
      (fun e _ he => he) (.inl (resolved_of_compile hcompile).supported)
      (fun e he => not_isUnsupported_of_refusal (Mapper.isRefusal_of_rejection he))
      (fun _ _ _ => .of_supported) (fun _ _ j p w _ => o.confined_nest o.nestingLimit id j p w _)
      (t := t) h
    exact hconfined.1 e he

/-- **The halves of the conversion table agree**, and mappings keep to it.

1. A cast refuses a value of the source primitive as unsupported just if the table of the
   resolution does not join the two primitives.
2. Whatever conversion is found between two types, through any options and sequences, never
   fails as unsupported, over handlers for the mappers it nests that do not.
3. So does no invocation of a mapping that resolves,
4. and no invocation of an instance of the owner and no call, after any operations. -/
theorem never_unsupported (o : Owner) :
    (∀ (p q : Primitive) (v : Value), v.type = .prim p →
      (Refuses (p.cast q v) ↔ p.convertsTo q = false)) ∧
    (∀ (S : Scope) (a b : Ty) (c : Conversion),
      (S.resolve a b = some c ∨ ∃ profile, Scope.nesting profile a b = some c) →
      ∀ (ω : Type) (nest : Nesting ω), nest.Supported →
      ∀ (parameter handedOn : Option Value) (v : Value) (call : Call ω) (e : MapError),
        ((c.run o.schema parameter handedOn nest v).run call).1 = .error e → ¬e.IsUnsupported) ∧
    (∀ (c : Config) (session : Session) (spec : Specification),
      (c.resolve o.schema o.defaults session).result = .ok spec →
      ∀ (ω : Type) (nest : Nat → Nesting ω), (∀ j, (nest j).Supported) →
      ∀ (i : Invocation) (t : Trail ω) (e : MapError),
        ((Mapper.mk spec).invoke o.schema nest i t).1.failure? = some e → ¬e.IsUnsupported) ∧
    (∀ (ops : List Operation) (i : Invocation) (journal : Journal) (e : MapError),
      (∀ id, (o.invoke id i { journal, outside := o.after ops }).1.failure? = some e →
        ¬e.IsUnsupported) ∧
      ∀ p r, (o.call p i { journal, outside := o.after ops }).1 = .ok r → r.failure? = some e →
        ¬e.IsUnsupported) := by
  refine ⟨?table, ?conversions, ?mappings, ?owner⟩
  case table =>
    intro p q v h
    exact Primitive.cast_refuses_iff h
  case conversions =>
    intro S a b c hfound ω nest hnest parameter handedOn v call e he
    have hsupported : c.Supported := by
      rcases hfound with hresolve | ⟨profile, hnesting⟩
      · exact Scope.supported_resolve hresolve
      · exact Scope.supported_nesting hnesting
    exact hsupported.run hnest he
  case mappings =>
    intro c session spec h ω nest hnest i t e he
    exact (Config.resolved_of_ok h).supported.invoke hnest he
  case owner =>
    intro ops i journal e
    have hcompiled : (o.after ops).Compiled o := (consistent_after o ops).compiled
    constructor
    · intro id he
      exact not_isUnsupported_of_invoke (t := { journal, outside := o.after ops }) hcompiled he
    · intro p r hr he
      have hserved := (served_erased { journal, outside := o.after ops } p).compiled hcompiled
      unfold call at hr
      rcases hrequest : o.request p { journal, outside := o.after ops } with ⟨e' | id, t⟩
      · rw [hrequest] at hr
        cases hr
      · rw [hrequest] at hr hserved
        cases hr
        exact not_isUnsupported_of_invoke (t := t) hserved he

/-- A character is refused as a truth value.  A list of texts is not, though one of them is no
byte. -/
theorem never_unsupported_bytes :
    let bytes := Conversion.elements (.prim .text) (.prim (.int .u8)) (.primitive .text (.int .u8))
    let texts := Value.seq (.prim .text) [.text "7", .text "x"]
    Refuses (Primitive.char.cast .bool (.char 'x')) ∧
      Scope.resolve {} (.seq (.prim .text)) (.seq (.prim (.int .u8))) = some bytes ∧
      ∃ e, ((bytes.run noteSchema none none (Conversion.unreachable : Nesting Unit) texts).run
        { trail := { outside := () } }).1 = .error e ∧ ¬e.IsUnsupported := by
  intro bytes texts
  have hfound : Scope.resolve {} (.seq (.prim .text)) (.seq (.prim (.int .u8))) = some bytes := by
    with_unfolding_all rfl
  have hnest : (Conversion.unreachable : Nesting Unit).Supported := by
    intro p v handedOn t e he
    cases he
    exact not_isUnsupported_of_loss trivial
  have hnever := never_unsupported notesOwner
  refine ⟨(hnever.1 .char .bool (.char 'x') rfl).mpr rfl, hfound, _, rfl, ?_⟩
  exact hnever.2.1 {} _ _ bytes (.inl hfound) Unit Conversion.unreachable hnest none none texts
    { trail := { outside := () } } _ rfl

end Owner

end RecordMap
