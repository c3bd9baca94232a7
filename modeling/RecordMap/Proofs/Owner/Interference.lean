import RecordMap.Proofs.Mapper.Blind
import RecordMap.Proofs.Owner.Tour

/-!
# Parameters do not interfere

A mapping that declares no parameter can still be called with one.  Whatever it is, the
call does the same, and the same as the call without a parameter where the mapping has
both shapes (`Owner.parameter_ignored`).  This includes all nested calls: none of them
is handed a parameter, whether the nested mappers declare one or not.

Two runs of one instance are compared, so the callbacks over the context must not look
at the parameter there; those of the nested mappers may, and find none.
-/

namespace RecordMap

/-- A call that can be made with a parameter and without one. -/
inductive Entry where
  | update (source destination : Value)
  | construct (source : Value)

namespace Entry

/-- The invocation with the given parameter, or without one. -/
def invocation : Entry → Option Value → Invocation
  | update s d, q => .updateFrom s q d
  | construct s, q => .constructFrom s q

/-- The shape of the call without a parameter. -/
def plain : Entry → Shape
  | update .. => .update
  | construct _ => .construct

/-- The shape of the call with a parameter. -/
def parameterized : Entry → Shape
  | update .. => .updateWith
  | construct _ => .constructWith

end Entry

/-! ## §1. One mapper -/

namespace Mapper

variable {ω : Type} {σ : Schema} {m : Mapper} {nest : Nat → Nesting ω} (e : Entry)

theorem rejection?_plain : m.rejection? σ (e.invocation none) = m.lack? σ e.plain := by
  cases e <;> rfl

/-- Where no parameter is declared, any value is admitted for one. -/
theorem rejection?_parameterized (hnone : m.spec.parameter = none) (p : Value) :
    m.rejection? σ (e.invocation (some p)) = m.lack? σ e.parameterized := by
  have hfits : m.misfit? σ p = none := by
    unfold misfit? parameter?
    rw [hnone]
    rfl
  have hwith : ∀ shape, (m.lack? σ shape).or (m.misfit? σ p) = m.lack? σ shape := by
    intro shape
    rw [hfits, Option.or_none]
  cases e with
  | update s d => exact hwith .updateWith
  | construct s => exact hwith .constructWith

theorem lack?_of_contains {shape : Shape} (h : m.shapes.contains shape = true) :
    m.lack? σ shape = none := by
  unfold lack?
  rw [if_pos h]

variable (hundeclared : m.spec.parameters = []) (hnone : m.spec.parameter = none)
  (hblind : m.spec.Blind)

include hundeclared hnone hblind

/-- **Two admitted calls** with whatever parameters are the same. -/
theorem invoke_of_blind {q r : Option Value} (hq : m.rejection? σ (e.invocation q) = none)
    (hr : m.rejection? σ (e.invocation r) = none) (t : Trail ω) :
    m.invoke σ nest (e.invocation q) t = m.invoke σ nest (e.invocation r) t := by
  cases e with
  | update s d =>
    show m.invoke σ nest (.updateFrom s q d) t = m.invoke σ nest (.updateFrom s r d) t
    rw [invoke_updateFrom hq, invoke_updateFrom hr,
      Specification.update_of_blind hundeclared hnone hblind q r]
  | construct s =>
    show m.invoke σ nest (.constructFrom s q) t = m.invoke σ nest (.constructFrom s r) t
    rw [invoke_constructFrom hq, invoke_constructFrom hr,
      Specification.construct_of_blind hundeclared hnone hblind q r]

/-- Calls with two parameters are both refused alike, or both admitted. -/
theorem invoke_parameterized (p q : Value) (t : Trail ω) :
    m.invoke σ nest (e.invocation (some p)) t = m.invoke σ nest (e.invocation (some q)) t := by
  have hp := rejection?_parameterized (σ := σ) e hnone p
  have hq := rejection?_parameterized (σ := σ) e hnone q
  cases hlack : m.lack? σ e.parameterized with
  | some err =>
    rw [invoke_of_rejection (hp.trans hlack), invoke_of_rejection (hq.trans hlack)]
    cases e <;> rfl
  | none => exact invoke_of_blind e hundeclared hnone hblind (hp.trans hlack) (hq.trans hlack) t

/-- With both shapes, a call with a parameter is the call without one. -/
theorem invoke_plain (hwith : m.shapes.contains e.parameterized = true)
    (hplain : m.shapes.contains e.plain = true) (p : Value) (t : Trail ω) :
    m.invoke σ nest (e.invocation (some p)) t = m.invoke σ nest (e.invocation none) t := by
  have hp := (rejection?_parameterized (σ := σ) e hnone p).trans (lack?_of_contains hwith)
  have hq := (rejection?_plain (σ := σ) e).trans (lack?_of_contains hplain)
  exact invoke_of_blind e hundeclared hnone hblind hp hq t

end Mapper

/-! ## §2. Nested calls -/

/-- A nested call that is handed no parameter. -/
def Visit.Bare (v : Visit) : Prop := v.parameter = none

namespace Owner

variable {o : Owner} {id : Nat} {m : Mapper} {t : Trail State} {i : Invocation}

theorem handedOn_none (s : Specification) : s.handedOn none = none := by
  unfold Specification.handedOn
  split <;> rfl

/-- **A nested call without a parameter** leads to nested calls without one, at any
depth. -/
theorem visiting_bare (o : Owner) (limit : Nat) (callers : List Value) (id i : Nat) (p : Pairing)
    (v : Value) :
    Trail.Confined (Tour.Over o Visit.Bare) (fun _ => True)
      (o.visiting limit callers id i p v none) := by
  have hbare : Visit.Bare { callers, pairing := p, value := v, parameter := none } := rfl
  induction limit generalizing callers id i p v with
  | zero =>
    unfold visiting
    exact (Tour.confined_enter hbare).bind fun _ _ => .throw trivial
  | succ limit ih =>
    refine visiting_confined_succ (fun _ _ => trivial) hbare (fun c _ m _ child => ?_) id i
    refine m.confined_constructAny (fun _ _ => trivial) v none (fun _ _ => trivial)
      (fun _ _ _ => trivial) fun j p' w _ => ?_
    have hnone : m.spec.handedOn (m.taken (.constructAny v none)) = none := by
      unfold Mapper.taken
      dsimp only
      rw [ite_self]
      exact handedOn_none m.spec
    rw [hnone]
    exact ih (v :: callers) child j p' w rfl

/-- **The tour of an instance that declares no parameter** has only such nested calls. -/
theorem tour_bare (h : t.outside.Compiled o) (hm : mapper? t.outside id = some m)
    (hnone : m.spec.parameter = none) (i : Invocation) :
    ∀ v ∈ (o.tour id i t).2.outside.visits, v.parameter = none := by
  have hnest : ∀ s, i.source? = some s → ∀ j p w, m.spec.Hands o.schema s j p w →
      Trail.Confined (Tour.Over o Visit.Bare) (fun _ => True)
        (o.visiting o.nestingLimit i.source?.toList id j p w (m.spec.handedOn (m.taken i))) := by
    intro s _ j p w _
    rw [handedOn_of_undeclared hnone]
    exact visiting_bare o o.nestingLimit i.source?.toList id j p w
  unfold tour
  rw [hm]
  -- A tour starts with no visit.
  have hconfined := m.confined_invoke (fun _ _ => trivial) (fun _ _ => trivial)
    (fun _ _ _ _ => trivial) hnest
    (t := { journal := t.journal, outside := { state := t.outside } }) ⟨h, nofun⟩
  exact hconfined.2.visits

/-! ## §3. Calls of an instance -/

/-- **The parameter makes no difference**: any two parameters give the same outcome, the
same journal and the same state, by the same nested calls; so does the call without one,
if the mapper has both shapes; and no nested call is handed a parameter. -/
structure Unaffected (o : Owner) (id : Nat) (m : Mapper) (t : Trail State) (e : Entry) : Prop where
  same : ∀ p q, o.invoke id (e.invocation (some p)) t = o.invoke id (e.invocation (some q)) t
  plain : m.shapes.contains e.parameterized = true → m.shapes.contains e.plain = true →
    ∀ p, o.invoke id (e.invocation (some p)) t = o.invoke id (e.invocation none) t
  toured : ∀ p q, o.tour id (e.invocation (some p)) t = o.tour id (e.invocation (some q)) t
  recorded : ∀ q, (o.tour id (e.invocation q) t).1 = (o.invoke id (e.invocation q) t).1 ∧
    Tour.Follows (o.invoke id (e.invocation q) t).2 (o.tour id (e.invocation q) t).2
  bare : ∀ q, ∀ v ∈ (o.tour id (e.invocation q) t).2.outside.visits, v.parameter = none

/-- **Parameters are ignored where none is declared.**  For every instance of an owner,
after any operations, whose mapping declares no parameter and does not look for one
through the context. -/
theorem parameter_ignored (o : Owner) (ops : List Operation)
    (hm : mapper? (o.after ops) id = some m) (hnone : m.spec.parameter = none)
    (hblind : m.spec.Blind) (j : Journal) (e : Entry) :
    o.Unaffected id m { journal := j, outside := o.after ops } e := by
  have hcompiled : (o.after ops).Compiled o := (consistent_after o ops).compiled
  obtain ⟨c, _, hcompile⟩ := hcompiled id m hm
  -- The callbacks of a specification declare its parameter, and there is none.
  have hundeclared : m.spec.parameters = [] := by
    rw [List.eq_nil_iff_forall_not_mem]
    intro u hu
    have hparameter := Config.parameter_of_ok (resolve_of_compile hcompile) hu
    rw [hnone] at hparameter
    cases hparameter
  have hsource : ∀ q r, (e.invocation q).source? = (e.invocation r).source? := by
    intro q r
    cases e <;> cases q <;> cases r <;> rfl
  constructor
  case same =>
    intro p q
    rw [invoke_eq hm, invoke_eq hm, Mapper.invoke_parameterized e hundeclared hnone hblind p q]
  case plain =>
    intro hwith hplain p
    rw [invoke_eq hm, invoke_eq hm, Mapper.invoke_plain e hundeclared hnone hblind hwith hplain]
  case toured =>
    intro p q
    unfold tour
    dsimp only
    rw [hm]
    dsimp only
    rw [hsource (some p) (some q), Mapper.invoke_parameterized e hundeclared hnone hblind p q]
  case recorded => exact fun q => tour_spec o id (e.invocation q) _
  case bare => exact fun q => tour_bare hcompiled hm hnone (e.invocation q)

/-- An owner of sheets of pages whose notes are viewed for a reader. -/
def readersOwner : Owner where
  schema := noteSchema
  configs := [Config.readerView, pageSheet]
  hash _ := 0

theorem mapperOf_readersPage :
    readersOwner.mapperOf ⟨.record "Page", .record "Sheet", none⟩ =
      .ok ⟨{ source := "Page", destination := "Sheet", members := [notesPlan] }⟩ :=
  congrArg (Except.map Mapper.mk) (resolve_pageSheet _)

/-- A sheet can be asked for with any parameter.  It makes no difference, though the
views in it declare one. -/
theorem parameter_ignored_sheet :
    let pages : Pairing := ⟨.record "Page", .record "Sheet", none⟩
    let notes : Pairing := ⟨.record "Note", .record "View", none⟩
    let spec : Specification :=
      { source := "Page", destination := "Sheet", members := [notesPlan] }
    let s := readersOwner.after [.request pages]
    let page : Value := .record "Page" [.seq (.record "Note") [.record "Note" [.absent (.prim .text)]]]
    mapper? s 0 = some ⟨spec⟩ ∧ spec.parameter = none ∧ spec.NestsAt 0 notes ∧
      (∃ c, readersOwner.choose? notes = some c ∧
        c.mappingParameters = [.prim .text]) ∧
      readersOwner.Unaffected 0 ⟨spec⟩ { outside := s } (.construct page) := by
  intro pages notes spec s page
  have hm := mapper?_after_request mapperOf_readersPage
  have hblind : spec.Blind := by
    refine Specification.blind_of_paths (fun plan hplan => ?_) rfl rfl
    cases List.mem_singleton.mp hplan
    exact ⟨_, _, _, rfl, rfl⟩
  have hnests : spec.NestsAt 0 notes :=
    ⟨notesPlan, List.mem_singleton.mpr rfl, rfl, _, _, _, rfl, List.mem_singleton.mpr rfl⟩
  have h := parameter_ignored readersOwner [.request pages] hm rfl hblind {} (.construct page)
  exact ⟨hm, rfl, hnests, ⟨Config.readerView, rfl, rfl⟩, h⟩

/-- An owner of views of notes that takes no parameter. -/
def plainOwner : Owner where
  schema := noteSchema
  configs := [{ noteView with shapes := .ofList [.update, .construct] }]
  hash _ := 0

/-- The specification of views that take no parameter. -/
def plainSpecification : Specification where
  source := "Note"
  destination := "View"
  members := [labelPlan]
  shapes := .ofList [.update, .construct]

theorem mapperOf_plainNote :
    plainOwner.mapperOf ⟨.record "Note", .record "View", none⟩ = .ok ⟨plainSpecification⟩ := by
  have hverdicts : Config.verdicts noteSchema
      { noteView with shapes := .ofList [.update, .construct] } {} =
      [(.planned labelPlan, {})] := by
    with_unfolding_all rfl
  have hresolve : (Config.resolve noteSchema
      { noteView with shapes := .ofList [.update, .construct] } {} { pair := "Note -> View" }).result =
      .ok plainSpecification := by
    unfold Config.resolve
    rw [hverdicts]
    with_unfolding_all rfl
  exact congrArg (Except.map Mapper.mk) hresolve

/-- **A parameter can be refused where none is declared**: a mapper that is compiled for
the plain shapes only updates without a parameter, and not with one. -/
theorem parameter_refused :
    let notes : Pairing := ⟨.record "Note", .record "View", none⟩
    let t : Trail State := { outside := plainOwner.after [.request notes] }
    let note : Value := .record "Note" [.absent (.prim .text)]
    let view : Value := .record "View" [.text "old"]
    mapper? t.outside 0 = some ⟨plainSpecification⟩ ∧ plainSpecification.parameter = none ∧
      plainSpecification.Blind ∧ plainSpecification.shapes.contains .update = true ∧
      (plainOwner.invoke 0 (.update note view) t).1 =
        .updated (.record "View" [.text "none"]) none ∧
      (plainOwner.invoke 0 (.updateWith note (.bool true) view) t).1 =
        .updated view (some (.shapeNotCompiled "update-with-parameter" "Note -> View")) := by
  intro notes t note view
  have hm : mapper? t.outside 0 = some ⟨plainSpecification⟩ :=
    mapper?_after_request mapperOf_plainNote
  have hblind : plainSpecification.Blind := by
    refine Specification.blind_of_paths (fun plan hplan => ?_) rfl rfl
    cases List.mem_singleton.mp hplan
    exact ⟨_, _, _, rfl, rfl⟩
  refine ⟨hm, rfl, hblind, rfl, ?_, ?_⟩
  · rw [invoke_eq hm]
    rfl
  · rw [invoke_eq hm]
    rfl

end Owner

end RecordMap
