import RecordMap.Proofs.Owner.Frame
import RecordMap.Proofs.Owner.Identity
import RecordMap.Proofs.Plan.Reordered

/-!
# Updates as overlays

An update by a steady plan lays values over its destination that the source and the
parameter determine alone.  So updating again changes nothing, and the priorities of
the members do not matter for what a successful update leaves.

The owner with other priorities of some members is compared with the first one over
nesting afresh: each of the two follows the other (`Owner.Follows`), mapper by mapper,
and that carries over to nested calls by induction on the nesting limit
(`Owner.Follows.nestAfresh_yields`).
-/

namespace RecordMap

namespace Owner

variable {o o' : Owner} {c c' : Config} {m m' : Mapper} {p : Pairing} {id : Nat}
  {t : Trail State} {source d d' : Value} {parameter : Option Value}

/-! ## §1. Invocations without memory -/

/-- **An invocation without memory**: all nested mappers are compiled on the spot. -/
def invokeAfresh (o : Owner) (m : Mapper) (i : Invocation) : Outcome :=
  (m.invoke o.schema (fun _ => o.nestAfresh o.nestingLimit) i ({ outside := () } : Trail Unit)).1

/-- The entries made before make no difference. -/
theorem invokeAfresh_eq (o : Owner) (m : Mapper) (i : Invocation) (u : Trail Unit) :
    (m.invoke o.schema (fun _ => o.nestAfresh o.nestingLimit) i u).1 = o.invokeAfresh m i := by
  have hsame : Outcome.Matches _ _
      (m.invoke o.schema (fun _ => o.nestAfresh o.nestingLimit) i u)
      (m.invoke o.schema (fun _ => o.nestAfresh o.nestingLimit) i ({ outside := () } : Trail Unit)) :=
    m.invoke_matches (fun _ _ _ _ => trivial)
      (fun _ p _ => nestAfresh_simulates (le_refl o.nestingLimit) p) i trivial
  rcases hsame with ⟨_, _, _, hlt⟩ | ⟨heq, _⟩
  · omega
  · exact heq

/-- An invocation of an instance comes to the one without memory, if the owner is still
there. -/
theorem invoke_afresh (h : o.Consistent t.outside) (halive : t.outside.alive = true)
    (hm : mapper? t.outside id = some m) (i : Invocation) :
    (o.invoke id i t).1 = o.invokeAfresh m i := by
  have htracks : o.Tracks true t.outside t ({ journal := t.journal, outside := () } : Trail Unit) :=
    tracks_start h fun _ => halive
  rcases invoke_matches hm htracks i with ⟨_, _, hlapse⟩ | ⟨heq, _⟩
  · cases hlapse.lax
  · exact heq.trans (o.invokeAfresh_eq m i _)

/-- So does one that succeeds, even if the owner is gone. -/
theorem invokeAfresh_of_updated (h : o.Consistent t.outside) (hm : mapper? t.outside id = some m)
    {i : Invocation} (hrun : (o.invoke id i t).1 = .updated d' none) :
    o.invokeAfresh m i = .updated d' none := by
  have htracks : o.Tracks false t.outside t ({ journal := t.journal, outside := () } : Trail Unit) :=
    tracks_start h nofun
  rcases invoke_matches hm htracks i with ⟨_, hfail, _⟩ | ⟨heq, _⟩
  · rw [hrun] at hfail
    cases hfail
  · rw [← o.invokeAfresh_eq m i _, ← heq, hrun]

theorem callAfresh_of_ok (h : o.mapperOf p = .ok m) (i : Invocation) :
    (o.callAfresh p i).1 = .ok (o.invokeAfresh m i) := by
  unfold callAfresh
  rw [h]
  rfl

/-! ## §2. Owners that follow others -/

/-- **One owner follows another**: its mappers are the same, or steady and the same but
for the order of members. -/
structure Follows (o o' : Owner) : Prop where
  schema : o'.schema = o.schema
  limit : o'.nestingLimit = o.nestingLimit
  mappers : ∀ p m, o.mapperOf p = .ok m →
    ∃ m', o'.mapperOf p = .ok m' ∧ (m' = m ∨ m.spec.Reordered m'.spec)

namespace Follows

theorem refl (o : Owner) : o.Follows o := ⟨rfl, rfl, fun _ m h => ⟨m, h, .inl rfl⟩⟩

/-- **Nested calls** of one owner yield what those of the other give. -/
theorem nestAfresh_yields (h : o.Follows o') (limit : Nat) (p : Pairing) :
    Nesting.Yields (fun _ : Unit => True) (fun _ : Unit => True) (o.nestAfresh limit)
      (o'.nestAfresh limit) p := by
  induction limit generalizing p with
  | zero => exact fun _ _ _ _ _ => .inl ⟨_, rfl, trivial⟩
  | succ limit ih =>
    intro v handedOn
    cases hof : o.mapperOf p with
    | error e =>
      rw [nestAfresh_of_error hof]
      exact fun _ _ _ => .inl ⟨_, rfl, trivial⟩
    | ok m =>
      obtain ⟨m', hof', hsame⟩ := h.mappers p m hof
      rw [nestAfresh_of_ok hof, nestAfresh_of_ok hof', h.schema]
      rcases hsame with rfl | hreordered
      · exact m'.simulates_constructAny (Trail.keepsNotes_apart _ _) (fun _ q _ => ih q) v handedOn
      · exact Mapper.constructAny_yields hreordered (fun _ q _ => ih q) v handedOn

/-- **An update that succeeds** does the same to every destination, by a reordered plan
of an owner that follows. -/
theorem update_of_updated (h : o.Follows o') (hreordered : m.spec.Reordered m'.spec)
    (hrun : o.invokeAfresh m (.updateFrom source parameter d) = .updated d' none) :
    ∃ turns, m.spec.Selects o.schema parameter source turns ∧ d' = overlay turns d ∧
      ∀ e, o'.invokeAfresh m' (.updateFrom source parameter e) =
        .updated (overlay turns e) none := by
  have hnest : ∀ (i : Nat) (p : Pairing), m.spec.NestsAt i p →
      Nesting.Yields (fun _ : Unit => True) (fun _ : Unit => True) (o.nestAfresh o.nestingLimit)
        (o'.nestAfresh o'.nestingLimit) p := by
    intro i p _
    rw [h.limit]
    exact h.nestAfresh_yields o.nestingLimit p
  have hinvoke : m.invoke o.schema (fun _ => o.nestAfresh o.nestingLimit)
      (.updateFrom source parameter d) ({ outside := () } : Trail Unit) =
        (.updated d' none, _) := Prod.ext hrun rfl
  obtain ⟨-, turns, hselects, hoverlay, hother⟩ :=
    Mapper.invoke_of_reordered hreordered hnest hinvoke trivial (w := ()) trivial
  refine ⟨turns, hselects, hoverlay, fun e => ?_⟩
  obtain ⟨u', -, hrun'⟩ := hother e { outside := () } trivial
  unfold invokeAfresh
  rw [h.schema, hrun']

end Follows

/-- **What an update comes to** is an overlay, the same for all destinations, or else
it fails for all of them. -/
theorem exists_overlay (o : Owner) (hm : m.spec.Reordered m.spec) (source : Value)
    (parameter : Option Value) :
    ∃ r : Option (List (MemberPlan × Option Value)),
      (∀ turns, r = some turns → m.spec.Selects o.schema parameter source turns) ∧
      ∀ d d', o.invokeAfresh m (.updateFrom source parameter d) = .updated d' none ↔
        ∃ turns, r = some turns ∧ d' = overlay turns d := by
  by_cases hsome : ∃ d d', o.invokeAfresh m (.updateFrom source parameter d) = .updated d' none
  · obtain ⟨d, d', hrun⟩ := hsome
    obtain ⟨turns, hselects, -, hother⟩ := (Follows.refl o).update_of_updated hm hrun
    refine ⟨some turns, ?_, fun e e' => ?_⟩
    · rintro _ ⟨⟩
      exact hselects
    · rw [hother e]
      constructor
      · rintro ⟨⟩
        exact ⟨turns, rfl, rfl⟩
      · rintro ⟨_, ⟨⟩, rfl⟩
        rfl
  · refine ⟨none, nofun, fun d d' => ?_⟩
    constructor
    · intro hrun
      exact absurd ⟨d, d', hrun⟩ hsome
    · rintro ⟨_, ⟨⟩, -⟩

/-! ## §3. Owners that are gone -/

/-- Once the owner is gone, nested calls leave its state as it is, and come to the same
every time. -/
theorem nest_yields_of_dropped {s : State} (halive : s.alive = false) (limit id i : Nat)
    (p : Pairing) :
    Nesting.Yields (· = s) (· = s) (o.nest limit id i) (o.nest limit id i) p := by
  induction limit generalizing id i p with
  | zero => exact fun _ _ _ _ _ => .inl ⟨_, rfl, trivial⟩
  | succ limit ih =>
    intro v handedOn t u htu
    have hnest : ∀ t, (o.nest (limit + 1) id i p v handedOn).run t =
        (o.follow (id, i) p >>= fun child => mapper child >>= fun m =>
          m.constructAny o.schema (o.nest limit child) v handedOn).run t := fun _ => rfl
    rw [hnest, hnest]
    cases hlink : s.links.lookup (id, i) with
    | none =>
      have hfollow : (o.follow (id, i) p).run t = (.error .ownerDropped, t) := by
        refine run_follow_of_dropped ?_ ?_
        · rw [htu.1, hlink]
        · rw [htu.1, halive]
      rw [Run.run_bind_error hfollow]
      exact .inl ⟨_, rfl, trivial⟩
    | some child =>
      have hfollow : ∀ w : Trail State, w.outside = s →
          (o.follow (id, i) p).run w = (.ok child, w) := by
        rintro w rfl
        exact run_follow_of_linked hlink
      rw [Run.run_bind_ok (hfollow t htu.1), Run.run_bind_ok (hfollow u htu.2)]
      cases hchild : mapper? s child with
      | none =>
        have hlost : (mapper child).run t = (.error .ownerDropped, t) := by
          unfold mapper
          rw [Run.run_bind_ok (Run.run_get t), htu.1, hchild]
          rfl
        rw [Run.run_bind_error hlost]
        exact .inl ⟨_, rfl, trivial⟩
      | some m =>
        have hmapper : ∀ w : Trail State, w.outside = s → (mapper child).run w = (.ok m, w) := by
          rintro w rfl
          exact run_mapper hchild
        rw [Run.run_bind_ok (hmapper t htu.1), Run.run_bind_ok (hmapper u htu.2)]
        exact m.simulates_constructAny (Trail.keepsNotes_apart _ _) (fun j q _ => ih child j q) v
          handedOn t u htu

/-- **Updating again** changes nothing, even if the owner is gone. -/
theorem invoke_again (h : o.Consistent t.outside) (hreordered : m.spec.Reordered m.spec)
    (hm : mapper? t.outside id = some m)
    (hrun : (o.invoke id (.updateFrom source parameter d) t).1 = .updated d' none) :
    (o.invoke id (.updateFrom source parameter d')
      (o.invoke id (.updateFrom source parameter d) t).2).1 = .updated d' none := by
  have hagain : ∀ {turns : List (MemberPlan × Option Value)},
      m.spec.Selects o.schema parameter source turns → d' = overlay turns d →
      overlay turns d' = d' := by
    rintro turns hselects rfl
    exact overlay_overlay (hselects.distinct hreordered) d
  cases halive : t.outside.alive with
  | true =>
    obtain ⟨turns, hselects, hoverlay, hother⟩ :=
      (Follows.refl o).update_of_updated hreordered (invokeAfresh_of_updated h hm hrun)
    have hkeeps := keeps_invoke h id (.updateFrom source parameter d)
    rw [invoke_afresh hkeeps.consistent (hkeeps.alive halive) (hkeeps.instances id m hm), hother,
      hagain hselects hoverlay]
  | false =>
    have hinvoke : m.invoke o.schema (o.nest o.nestingLimit id) (.updateFrom source parameter d) t =
        (.updated d' none, (o.invoke id (.updateFrom source parameter d) t).2) := by
      rw [← invoke_eq hm]
      exact Prod.ext hrun rfl
    have hnest : ∀ i p, m.spec.NestsAt i p → Nesting.Yields (· = t.outside) (· = t.outside)
        (o.nest o.nestingLimit id i) (o.nest o.nestingLimit id i) p :=
      fun i p _ => nest_yields_of_dropped halive o.nestingLimit id i p
    obtain ⟨hkeep, turns, hselects, hoverlay, hother⟩ :=
      Mapper.invoke_of_reordered hreordered hnest hinvoke rfl rfl
    obtain ⟨u, -, hrun'⟩ := hother d' (o.invoke id (.updateFrom source parameter d) t).2 hkeep
    rw [invoke_eq (by rw [hkeep]; exact hm), hrun', hagain hselects hoverlay]

/-! ## §4. Owners with other priorities -/

/-- A configuration registered in place of another is chosen in its place. -/
theorem choose?_register (hc : o.configs.find? (·.pairing == c.pairing) = some c)
    (hpairing : c'.pairing = c.pairing) (p : Pairing) :
    (o.register c').choose? p =
      (o.choose? p).map fun x => if x.pairing = c.pairing then c' else x := by
  have hfind : ∀ q, (o.register c').configs.find? (·.pairing == q) =
      (o.configs.find? (·.pairing == q)).map fun x => if x.pairing = c.pairing then c' else x := by
    intro q
    rw [find?_register, hpairing]
    by_cases hq : c.pairing = q
    · rw [if_pos hq, ← hq, hc, Option.map_some, if_pos rfl]
    · rw [if_neg hq]
      cases hx : o.configs.find? (·.pairing == q) with
      | none => rfl
      | some x =>
        have hxq : x.pairing = q := by simpa using List.find?_some hx
        rw [Option.map_some, if_neg (by rw [hxq]; exact Ne.symm hq)]
  unfold choose?
  rw [hfind, hfind, Option.map_or]

/-- Other priorities of a steady mapping give a mapper that is reordered. -/
theorem compile_of_reorders (hm : (o.compile c).1 = .ok m) (hsteady : m.spec.Steady)
    (h : c.Reorders o.schema c') :
    ∃ m', (o.compile c').1 = .ok m' ∧ m.spec.Reordered m'.spec := by
  have hresult := resolve_of_compile hm
  have hpairing : c'.pairing = c.pairing := by
    rw [h.rest]
    rfl
  obtain ⟨spec', hresult', hrest, hmembers⟩ := h.resolve_ok hresult
  refine ⟨⟨spec'⟩, ?_, hsteady, Config.distinct_members hresult, hrest, hmembers⟩
  unfold compile
  dsimp only
  rw [hpairing, hresult']
  rfl

section

variable (hc : o.configs.find? (·.pairing == c.pairing) = some c)
  (hpairing : c'.pairing = c.pairing) (hm : (o.compile c).1 = .ok m)
  (hm' : (o.compile c').1 = .ok m')

include hc hpairing hm hm'

/-- All mappers stay as they are, but for the one. -/
theorem mapperOf_register (p : Pairing) :
    (o.mapperOf p = .ok m ∧ (o.register c').mapperOf p = .ok m') ∨
      (o.register c').mapperOf p = o.mapperOf p := by
  have hchoose := choose?_register hc hpairing p
  unfold mapperOf
  rw [hchoose]
  cases hx : o.choose? p with
  | none => exact .inr rfl
  | some x =>
    by_cases hxc : x.pairing = c.pairing
    · have hsame : x = c := by
        have hfind := find?_of_choose? hx
        rw [hxc, hc] at hfind
        exact (Option.some.inj hfind).symm
      subst hsame
      rw [Option.map_some, if_pos rfl]
      exact .inl ⟨hm, hm'⟩
    · rw [Option.map_some, if_neg hxc]
      exact .inr rfl

/-- The owner with the other priorities and the first one follow each other. -/
theorem follows_register (h : m.spec.Reordered m'.spec) :
    o.Follows (o.register c') ∧ (o.register c').Follows o := by
  have hmappers := mapperOf_register hc hpairing hm hm'
  refine ⟨⟨rfl, rfl, fun p x hx => ?_⟩, ⟨rfl, rfl, fun p x hx => ?_⟩⟩
  · rcases hmappers p with ⟨hp, hp'⟩ | hsame
    · cases hp.symm.trans hx
      exact ⟨m', hp', .inr h⟩
    · exact ⟨x, hsame.trans hx, .inl rfl⟩
  · rcases hmappers p with ⟨hp, hp'⟩ | hsame
    · cases hp'.symm.trans hx
      exact ⟨m, hp, .inr h.symm⟩
    · exact ⟨x, hsame.symm.trans hx, .inl rfl⟩

end

/-- Calls of owners that follow each other succeed alike. -/
theorem call_updated_iff (h : o.Follows o') (h' : o'.Follows o)
    (hreordered : m.spec.Reordered m'.spec) (hof : o.mapperOf p = .ok m)
    (hof' : o'.mapperOf p = .ok m') {ops ops' : List Operation} (hops : .drop ∉ ops)
    (hops' : .drop ∉ ops') :
    (o.call p (.updateFrom source parameter d) { outside := o.after ops }).1 =
        .ok (.updated d' none) ↔
      (o'.call p (.updateFrom source parameter d) { outside := o'.after ops' }).1 =
        .ok (.updated d' none) := by
  rw [(call_spec (consistent_after o ops) (alive_after hops) p _).1,
    (call_spec (consistent_after o' ops') (alive_after hops') p _).1,
    callAfresh_of_ok hof, callAfresh_of_ok hof', Except.ok.injEq, Except.ok.injEq]
  constructor
  · intro hrun
    obtain ⟨turns, -, rfl, hother⟩ := h.update_of_updated hreordered hrun
    exact hother d
  · intro hrun
    obtain ⟨turns, -, rfl, hother⟩ := h'.update_of_updated hreordered.symm hrun
    exact hother d

/-! ## §5. Overlays -/

/-- **An update is an overlay that the source determines**, for every mapping whose
plan has no hooks, no provider that reads the destination, and no provider or converter
that uses the context of the call; nested mappings may have any of these.

1. The turns of the members, and with them the members that are assigned and the
   values they hold, are the same for all destinations, after any operations: a member
   has a value just if all guards and its own conditions hold.  An update that succeeds
   leaves its destination with these turns laid over it, and while the owner is there
   updates succeed for all destinations or for none.
2. Updating again from the same source succeeds and changes nothing.
3. With any other priorities of members registered instead, the mapping still compiles,
   and its updates succeed for the same destinations and leave them the same. -/
theorem update_overlays (o : Owner) (hc : o.configs.find? (·.pairing == c.pairing) = some c)
    (hm : (o.compile c).1 = .ok m) (hsteady : m.spec.Steady) (source : Value)
    (parameter : Option Value) :
    let update := fun d => Invocation.updateFrom source parameter d
    (∃ r : Option (List (MemberPlan × Option Value)),
      (∀ turns, r = some turns → m.spec.Selects o.schema parameter source turns ∧
        ∀ d : Value, d.HasType o.schema (.record c.destination) →
          Framed turns d (overlay turns d)) ∧
      ∀ ops journal id d d', mapper? (o.after ops) id = some m →
        let t : Trail State := { journal, outside := o.after ops }
        ((o.invoke id (update d) t).1 = .updated d' none →
          ∃ turns, r = some turns ∧ d' = overlay turns d) ∧
        (.drop ∉ ops → ∀ turns, r = some turns →
          (o.invoke id (update d) t).1 = .updated (overlay turns d) none)) ∧
    (∀ ops journal id d d', mapper? (o.after ops) id = some m →
      let t : Trail State := { journal, outside := o.after ops }
      (o.invoke id (update d) t).1 = .updated d' none →
        (o.invoke id (update d') (o.invoke id (update d) t).2).1 = .updated d' none) ∧
    (∀ orders : List (String × Int), (∀ order ∈ orders, c.isWritable o.schema order.1 = true) →
      let o' := o.register (c.reordered orders)
      (∃ m', (o'.compile (c.reordered orders)).1 = .ok m') ∧
      ∀ p, o.choose? p = some c → ∀ ops ops', .drop ∉ ops → .drop ∉ ops' → ∀ d d',
        (o.call p (update d) { outside := o.after ops }).1 = .ok (.updated d' none) ↔
          (o'.call p (update d) { outside := o'.after ops' }).1 = .ok (.updated d' none)) := by
  intro update
  have hself : m.spec.Reordered m.spec :=
    .refl hsteady (Config.distinct_members (resolve_of_compile hm))
  refine ⟨?_, ?_, ?_⟩
  · obtain ⟨r, hselects, hupdates⟩ := o.exists_overlay hself source parameter
    refine ⟨r, fun turns hr => ⟨hselects turns hr, fun d hd => ?_⟩, ?_⟩
    · refine framed_overlay ((hselects turns hr).distinct hself) fun taken htaken => ?_
      exact isSome_slot? (resolved_of_compile hm) hd ((hselects turns hr).mem_members htaken)
    · intro ops journal id d d' hid t
      have hcons := consistent_after o ops
      refine ⟨fun hrun => (hupdates d d').mp (invokeAfresh_of_updated hcons hid hrun), ?_⟩
      intro hops turns hr
      rw [invoke_afresh hcons (alive_after hops) hid]
      exact (hupdates d _).mpr ⟨turns, hr, rfl⟩
  · intro ops journal id d d' hid t hrun
    exact invoke_again (t := t) (consistent_after o ops) hself hid hrun
  · intro orders horders o'
    have hreorders := Config.reorders_reordered horders
    have hpairing : (c.reordered orders).pairing = c.pairing := by
      rw [hreorders.rest]
      rfl
    obtain ⟨m', hm', hreordered⟩ := compile_of_reorders hm hsteady hreorders
    refine ⟨⟨m', hm'⟩, ?_⟩
    intro p hp ops ops' hops hops' d d'
    obtain ⟨hfollows, hfollows'⟩ := follows_register hc hpairing hm hm' hreordered
    have hof : o.mapperOf p = .ok m := (mapperOf_of_choose? hp).trans hm
    have hof' : o'.mapperOf p = .ok m' := by
      have hchoose := choose?_register hc hpairing p
      rw [hp, Option.map_some, if_pos rfl] at hchoose
      exact (mapperOf_of_choose? hchoose).trans hm'
    exact call_updated_iff hfollows hfollows' hreordered hof hof' hops hops'

/-- The label of a view is overwritten by that of a note; doing it again changes nothing,
and neither does another priority of the label. -/
theorem update_overlays_note :
    let note : Value := .record "Note" [.absent (.prim .text)]
    let old : Value := .record "View" [.text "old"]
    let new : Value := .record "View" [.text "none"]
    let notes : Pairing := ⟨.record "Note", .record "View", none⟩
    let m : Mapper := ⟨{ source := "Note", destination := "View", members := [labelPlan] }⟩
    let t : Trail State := { outside := notesOwner.after [.request notes] }
    let o' := notesOwner.register (noteView.reordered [("label", 7)])
    notesOwner.configs.find? (·.pairing == noteView.pairing) = some noteView ∧
      (notesOwner.compile noteView).1 = .ok m ∧ m.spec.Steady ∧
      noteView.isWritable notesOwner.schema "label" = true ∧
      (notesOwner.invoke 0 (.update note old) t).1 = .updated new none ∧
      (notesOwner.invoke 0 (.update note new) (notesOwner.invoke 0 (.update note old) t).2).1 =
        .updated new none ∧
      (o'.call notes (.update note old) { outside := o'.start }).1 = .ok (.updated new none) := by
  intro note old new notes m t o'
  have hc : notesOwner.configs.find? (·.pairing == noteView.pairing) = some noteView := by
    with_unfolding_all rfl
  have hm : (notesOwner.compile noteView).1 = .ok m :=
    congrArg (Except.map Mapper.mk) (resolve_noteView _)
  have hsteady : m.spec.Steady := by
    refine ⟨rfl, rfl, ?_⟩
    intro plan hplan
    cases List.mem_singleton.mp hplan
    constructor
    · rintro p k sentinel ⟨⟩
    · rintro a k sentinel ⟨⟩ f ⟨⟩
  have hwritable : noteView.isWritable notesOwner.schema "label" = true := by
    with_unfolding_all rfl
  have hops : .drop ∉ [Operation.request notes] := by simp
  have hid : mapper? t.outside 0 = some m := mapper?_after_request mapperOf_note
  have hrun : (notesOwner.invoke 0 (.update note old) t).1 = .updated new none := by
    have hcons : notesOwner.Consistent t.outside := consistent_after notesOwner _
    rw [invoke_afresh hcons (alive_after hops) hid]
    rfl
  have hcall : (notesOwner.call notes (.update note old)
      { outside := notesOwner.after [] }).1 = .ok (.updated new none) := by
    rw [(call_spec (consistent_after notesOwner []) rfl _ _).1, callAfresh_of_ok mapperOf_note]
    rfl
  have h := update_overlays notesOwner hc hm hsteady note none
  have horders : ∀ order ∈ [("label", (7 : Int))],
      noteView.isWritable notesOwner.schema order.1 = true := by
    rintro _ (_ | _)
    · exact hwritable
    · contradiction
  refine ⟨hc, hm, hsteady, hwritable, hrun, h.2.1 _ {} 0 old new hid hrun, ?_⟩
  exact ((h.2.2 _ horders).2 notes rfl [] [] (by simp) (by simp) old new).mp hcall

end Owner

end RecordMap
