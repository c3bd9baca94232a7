import RecordMap.Proofs.Owner.Direct

/-!
# Nesting is compositional

A nested mapping is reached through a link, the registry, and the bound on nesting.
What comes of it is still only what the direct call gives (`Owner.nest_directly`),
and so a mapping that nests can be understood from the direct calls of the mappers
nested in it: its conversions and its whole calls do what they do over a handler
that answers by direct calls.
-/

namespace RecordMap

namespace Owner

variable {o : Owner} {s : State} {id : Nat} {p : Pairing} {m : Mapper} {v : Value}
  {q : Option Value} {r : Except MapError Value}

/-! ## §1. Nested calls -/

section

variable {s' : State} {i k : Nat} {t : Trail State}

/-- **A nested call** keeps the state and comes to what it comes to afresh. -/
theorem nest_spec (limit : Nat) (hm : mapper? s id = some m) (hnests : m.spec.NestsAt i p)
    (halive : s.alive = true) (ht : o.Keeps s t.outside) (v : Value) (q : Option Value) :
    ((o.nest limit id i p v q).run t).1 =
        ((o.nestAfresh limit p v q).run ({ outside := () } : Trail Unit)).1 ∧
      o.Keeps s ((o.nest limit id i p v q).run t).2.outside := by
  have htracks : o.Tracks true s t ({ journal := t.journal, outside := () } : Trail Unit) :=
    ⟨ht.consistent, ht.instances, fun _ => ht.alive halive, interleaved_refl o _⟩
  rcases nest_simulates limit hm hnests v q t _ htracks with ⟨_, _, hlapse⟩ | ⟨hresult, htrail⟩
  · cases hlapse.lax
  · refine ⟨hresult.trans ?_, htrail.consistent, htrail.keeps, fun _ => htrail.alive rfl⟩
    rcases nestAfresh_simulates (le_refl limit) p v q { journal := t.journal, outside := () }
        ({ outside := () } : Trail Unit) trivial with ⟨_, _, _, hlt⟩ | ⟨heq, _⟩
    · omega
    · exact heq

/-- **A nested call comes to the direct call**, unless it goes too deep. -/
theorem nest_directly {limit : Nat} (hlimit : limit ≤ k + 1) (hm : mapper? s id = some m)
    (hnests : m.spec.NestsAt i p) (halive : s.alive = true) (ht : o.Keeps s t.outside)
    (h' : o.Consistent s') (halive' : s'.alive = true) (v : Value) (q : Option Value) :
    (((o.nest limit id i p v q).run t).1 = .error .nestingTooDeep ∧ limit ≤ k) ∨
      (o.within k).Directly s' p v q ((o.nest limit id i p v q).run t).1 := by
  -- Compare with nesting afresh as deep as the direct call goes.
  rw [(nest_spec limit hm hnests halive ht v q).1]
  rcases nestAfresh_simulates hlimit p v q { outside := () } ({ outside := () } : Trail Unit)
      trivial with ⟨_, hdeep, rfl, hlt⟩ | ⟨heq, _⟩
  · exact .inl ⟨hdeep, by omega⟩
  · rw [heq, ← within_nestAfresh o k]
    exact .inr (directly_nestAfresh (h'.within k) halive' p v q)

/-- A nested call does what a handler does that answers by direct calls. -/
theorem nest_simulates_answering {limit : Nat} (hlimit : limit ≤ k + 1)
    (hm : mapper? s id = some m) (hnests : m.spec.NestsAt i p) (halive : s.alive = true)
    (h' : o.Consistent s') (halive' : s'.alive = true)
    {f : Pairing → Value → Option Value → Except MapError Value}
    (hf : (o.within k).Directly s' p v q (f p v q)) :
    Run.Simulates (fun t (_ : Trail Unit) => o.Keeps s t.outside)
      (fun e _ => e = .nestingTooDeep ∧ limit ≤ k) (o.nest limit id i p v q)
      (Nesting.answering f p v q) := by
  intro t _ ht
  rcases nest_directly hlimit hm hnests halive ht h' halive' v q with hdeep | hdirect
  · exact .inl ⟨_, hdeep.1, rfl, hdeep.2⟩
  -- Both the result and the answer are what nesting afresh gives.
  · have hresult := hdirect.run_nestAfresh (h'.within k) halive'
    have hanswer := hf.run_nestAfresh (h'.within k) halive'
    exact .inr ⟨hresult.symm.trans hanswer, (nest_spec limit hm hnests halive ht v q).2⟩

end

/-! ## §2. Whole mappings -/

theorem handedOn_of_undeclared {spec : Specification} (h : spec.parameter = none)
    (parameter : Option Value) : spec.handedOn parameter = none := by
  unfold Specification.handedOn
  rw [h]
  rfl

theorem handedOn_of_declared {spec : Specification} {t : Ty} (h : spec.parameter = some t)
    (parameter : Option Value) : spec.handedOn parameter = parameter := by
  unfold Specification.handedOn
  rw [h]
  rfl

/-- The first request of a new owner makes its first instance. -/
theorem mapper?_after_request (hp : o.mapperOf p = .ok m) :
    mapper? (o.after [.request p]) 0 = some m := by
  show mapper? (o.request p { outside := o.start }).2.outside 0 = some m
  unfold mapperOf at hp
  unfold request
  cases hc : o.choose? p with
  | none =>
    rw [hc] at hp
    cases hp
  | some c =>
    rw [hc] at hp
    have hcompile : o.compile c = (.ok m, (o.compile c).2) := Prod.ext hp rfl
    dsimp only
    unfold Registry.getOrCreate
    have hfst := Registry.tryGet_fst o.start.registry c.pairing
    rcases htry : o.start.registry.tryGet c.pairing with ⟨_ | a, r⟩
    · dsimp only
      unfold build
      rw [hcompile]
      rfl
    -- Nothing is found in an empty registry.
    · rw [htry] at hfst
      have hempty : o.start.registry.Holds fun _ _ => False := Registry.holds_empty _ _
      exact (hempty.of_find? hfst.symm).elim

/-- The plan of the notes of a sheet. -/
def notesPlan : MemberPlan where
  member := "notes"
  type := .seq (.record "View")
  declaration := 0
  strategy := .nested
  production := .read (.path { head := 0, terminal := .seq (.record "Note"), names := ["notes"] })
    (.elements (.record "Note") (.record "View") (.nested ⟨.record "Note", .record "View", none⟩))
    none

theorem verdicts_pageSheet : pageSheet.verdicts noteSchema {} = [(.planned notesPlan, {})] := by
  with_unfolding_all rfl

theorem resolve_pageSheet (name : String) :
    (pageSheet.resolve noteSchema {} { pair := name }).result =
      .ok { source := "Page", destination := "Sheet", members := [notesPlan] } := by
  unfold Config.resolve
  rw [verdicts_pageSheet]
  with_unfolding_all rfl

theorem mapperOf_page :
    notesOwner.mapperOf ⟨.record "Page", .record "Sheet", none⟩ =
      .ok ⟨{ source := "Page", destination := "Sheet", members := [notesPlan] }⟩ :=
  congrArg (Except.map Mapper.mk) (resolve_pageSheet _)

/-- **Nesting is compositional**, for every member of an instance that is read
through a conversion to a nested mapper, and whenever the direct calls are made.
For a large enough bound on nesting, or one level further in for the very same,

1. what the parent hands on is the parameter it declares, if it declares one;
2. the nested call comes to the direct call;
3. the conversion around it gives what it gives with the direct calls for an
   answer, whatever is in the scratch store, and leaves that alone;
4. an invocation of the parent comes to what it comes to with direct calls for the
   answers to all its nested members;
5. the failure of a nested call is the failure of the invocation. -/
theorem nesting_compositional (o : Owner) {ops ops' : List Operation} (hops : .drop ∉ ops)
    (hops' : .drop ∉ ops') {k : Nat} (hk : o.nestingLimit ≤ k + 1)
    (hm : mapper? (o.after ops) id = some m) {plan : MemberPlan} (hplan : plan ∈ m.spec.members)
    {a : Accessor} {conversion : Conversion} {sentinel : Option Value}
    (hread : plan.production = .read a conversion sentinel) (hp : p ∈ conversion.pairings)
    (parameter : Option Value) :
    let q := m.spec.handedOn parameter
    let nest := o.nest o.nestingLimit id
    let TooDeep := fun e => e = MapError.nestingTooDeep ∧ o.nestingLimit ≤ k
    ((m.spec.parameter = none → q = none) ∧ ∀ t, m.spec.parameter = some t → q = parameter) ∧
    (∀ v journal,
      let r := ((nest plan.declaration p v q).run { journal, outside := o.after ops }).1
      (∃ e, TooDeep e ∧ r = .error e) ∨ (o.within k).Directly (o.after ops') p v q r) ∧
    (∀ byHand : Value → Except MapError Value,
      (∀ v, (o.within k).Directly (o.after ops') p v q (byHand v)) →
      ∀ v scratch journal,
        let (r, call) := (conversion.run o.schema parameter q (nest plan.declaration) v).run
          { scratch, trail := { journal, outside := o.after ops } }
        call.scratch = scratch ∧ ((∃ e, TooDeep e ∧ r = .error e) ∨
          r = ((conversion.run o.schema none none (Nesting.answering fun _ v _ => byHand v) v).run
            ({ trail := { outside := () } } : Call Unit)).1)) ∧
    (∀ byHand : Nat → Pairing → Value → Option Value → Except MapError Value,
      (∀ i p v q, m.spec.NestsAt i p →
        (o.within k).Directly (o.after ops') p v q (byHand i p v q)) →
      ∀ i journal,
        let r := (o.invoke id i { journal, outside := o.after ops }).1
        (∃ e, TooDeep e ∧ r.failure? = some e) ∨
          r = (m.invoke o.schema (fun i => Nesting.answering (byHand i)) i
            ({ outside := () } : Trail Unit)).1) ∧
    (∀ i journal e,
      let t : Trail State := { journal, outside := o.after ops }
      (m.invoke o.schema (fun i => (nest i).recording) i t.watched).2.outside.2 = some e →
        (o.invoke id i t).1.failure? = some e) := by
  intro q nest TooDeep
  have hcons := consistent_after o ops
  have halive := alive_after (o := o) hops
  have hcons' := consistent_after o ops'
  have halive' := alive_after (o := o) hops'
  have hnests : m.spec.NestsAt plan.declaration p :=
    ⟨plan, hplan, rfl, a, conversion, sentinel, hread, hp⟩
  refine ⟨⟨?_, ?_⟩, ?_, ?_, ?_, ?_⟩
  · exact fun h => handedOn_of_undeclared h parameter
  · exact fun t h => handedOn_of_declared h parameter
  · intro v journal r
    rcases nest_directly (t := { journal, outside := o.after ops }) hk hm hnests halive
      (.refl hcons) hcons' halive' v q with hdeep | hdirect
    · exact .inl ⟨_, ⟨rfl, hdeep.2⟩, hdeep.1⟩
    · exact .inr hdirect
  · intro byHand hbyHand v scratch journal
    have hleaf : ∀ v, Run.Simulates
        (fun c (_ : Call Unit) => c.scratch = scratch ∧ o.Keeps (o.after ops) c.trail.outside)
        (fun e c => TooDeep e ∧ c.scratch = scratch) (Call.onTrail (nest plan.declaration p v q))
        (Call.onTrail (Nesting.answering (fun _ v _ => byHand v) p v none)) := by
      intro v
      have hanswer := nest_simulates_answering (f := fun _ v _ => byHand v) hk hm hnests halive
        hcons' halive' (hbyHand v)
      exact hanswer.zoom (fun _ _ hc => hc.2) (fun _ _ _ _ hc ht => ⟨hc.1, ht⟩)
        fun _ _ _ _ hc he => ⟨he, hc.1⟩
    -- Around the leaf nothing touches the call, and so the scratch stays.
    have haround : Run.Simulates
        (fun c (_ : Call Unit) => c.scratch = scratch ∧ o.Keeps (o.after ops) c.trail.outside)
        (fun e c => TooDeep e ∧ c.scratch = scratch)
        (conversion.run o.schema parameter q (nest plan.declaration) v)
        (conversion.run o.schema none none (Nesting.answering fun _ v _ => byHand v) v) :=
      Conversion.simulates_around hp hleaf v
    rcases haround { scratch, trail := { journal, outside := o.after ops } }
        { trail := { outside := () } } ⟨rfl, .refl hcons⟩ with ⟨e, hfail, he⟩ | ⟨heq, hkept⟩
    · exact ⟨he.2, .inl ⟨e, he.1, hfail⟩⟩
    · exact ⟨hkept.1, .inr heq⟩
  · intro byHand hbyHand i journal r
    have hanswers : ∀ j p, m.spec.NestsAt j p →
        Nesting.Simulates (fun t (_ : Trail Unit) => o.Keeps (o.after ops) t.outside)
          (fun e _ => TooDeep e) (nest j) (Nesting.answering (byHand j)) p := by
      intro j p hj v q
      exact nest_simulates_answering hk hm hj halive hcons' halive' (hbyHand j p v q hj)
    have hinvoke : r = (m.invoke o.schema nest i { journal, outside := o.after ops }).1 := by
      show (o.invoke id i _).1 = _
      rw [invoke_eq hm]
    rw [hinvoke]
    rcases m.invoke_matches (fun _ _ _ ht => ht) hanswers i
        (t := { journal, outside := o.after ops }) (.refl hcons) with ⟨e, hfail, he⟩ | ⟨heq, _⟩
    · exact .inl ⟨e, he, hfail⟩
    · exact .inr heq
  · intro i journal e t hrecorded
    rw [invoke_eq (t := t) hm]
    exact m.failure_of_recording nest i t hrecorded

/-- A note on a page is viewed as it is by the direct call. -/
theorem nesting_compositional_note :
    let note : Value := .record "Note" [.absent (.prim .text)]
    let notes : Pairing := ⟨.record "Note", .record "View", none⟩
    let pages : Pairing := ⟨.record "Page", .record "Sheet", none⟩
    let s := notesOwner.after [.request pages]
    let r := ((notesOwner.nest notesOwner.nestingLimit 0 notesPlan.declaration notes note none).run
      { outside := s }).1
    mapper? s 0 = some ⟨{ source := "Page", destination := "Sheet", members := [notesPlan] }⟩ ∧
      (notesOwner.within (2 ^ 32 - 1)).Directly s notes note none r ∧
      r = .ok (.record "View" [.text "none"]) := by
  intro note notes pages s r
  have hops : .drop ∉ [Operation.request pages] := by simp
  have hk : notesOwner.nestingLimit ≤ 2 ^ 32 - 1 + 1 := by decide
  have hm := mapper?_after_request mapperOf_page
  have hplan : notesPlan ∈ [notesPlan] := List.mem_singleton.mpr rfl
  have h := nesting_compositional notesOwner hops hops hk hm hplan rfl (p := notes)
    (List.mem_singleton.mpr rfl) none
  have hdirect : (notesOwner.within (2 ^ 32 - 1)).Directly s notes note none r := by
    rcases h.2.1 note {} with ⟨_, hdeep, _⟩ | hdirect
    · exact absurd hdeep.2 (by decide)
    · exact hdirect
  have hr := hdirect.run_nestAfresh ((consistent_after notesOwner _).within _) (alive_after hops)
  have hnote : (notesOwner.within (2 ^ 32 - 1)).mapperOf notes = _ := mapperOf_note
  rw [nestAfresh_of_ok hnote] at hr
  exact ⟨hm, hdirect, hr.symm⟩

end Owner

end RecordMap
