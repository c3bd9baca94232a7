import RecordMap.Proofs.Mapper.Entry
import RecordMap.Proofs.Mapper.Frame
import RecordMap.Proofs.Owner.Indexed
import RecordMap.Proofs.Owner.Nesting
import RecordMap.Proofs.Plan.Journal
import RecordMap.Proofs.Plan.Planned

/-!
# What a call leaves untouched

A call of a mapping without hooks goes through three stages, and what it leaves
untouched depends on how far it gets.  A call whose mapper cannot be built, or that is
turned away at the entry, leaves all destinations as they are.  A call that is
admitted changes planned members only, in the order of the plan, and none from the
first on that fails.

Building a mapper runs the converters that fit constants to their members, so a build
that fails may have run some of these, and nothing else.
-/

namespace RecordMap

namespace Owner

variable {o : Owner} {p : Pairing} {t : Trail State} {e : BuildError}

/-! ## §1. Builds that fail -/

/-- **What a build that fails leaves behind**: counts of the registry, and entries of
converters that were run to fit values to members. -/
structure Unbuilt (o : Owner) (t t' : Trail State) : Prop where
  mappers : t'.outside.mappers = t.outside.mappers
  links : t'.outside.links = t.outside.links
  alive : t'.outside.alive = t.outside.alive
  found : ∀ key, t'.outside.registry.find? key = t.outside.registry.find? key
  journal : ∃ labels, t'.journal.entries = t.journal.entries ++ labels ∧
    ∀ label ∈ labels, ∃ c ∈ o.configs, ∃ k,
      c.FitsBy o.schema o.defaults k ∧ k.label = label

theorem unbuilt_of_request (h : (o.request p t).1 = .error e) : o.Unbuilt t (o.request p t).2 := by
  cases hc : o.choose? p with
  | none =>
    rw [request_of_unknown hc]
    exact ⟨rfl, rfl, rfl, fun _ => rfl, [], (List.append_nil _).symm, nofun⟩
  | some c =>
    cases hfind : t.outside.registry.find? c.pairing with
    | some id =>
      rw [request_of_hit hc hfind] at h
      cases h
    | none =>
      cases hcompile : (o.compile c).1 with
      | ok m =>
        rw [request_of_built hc hfind hcompile] at h
        cases h
      | error e' =>
        rw [request_of_failed hc hfind hcompile]
        refine ⟨rfl, rfl, rfl, fun _ => rfl, (o.compile c).2.entries, Journal.entries_append _ _, ?_⟩
        intro label hlabel
        have hfits := Config.only_resolve { pair := c.pairing.name o.schema } label hlabel
        exact ⟨c, mem_of_choose? hc, hfits⟩

theorem call_of_request_error {t' : Trail State} (h : o.request p t = (.error e, t'))
    (i : Invocation) : o.call p i t = (.error e, t') := by
  unfold call
  rw [h]

/-- A call fails to build just if its request does. -/
theorem unbuilt_of_call {i : Invocation} (h : (o.call p i t).1 = .error e) :
    o.Unbuilt t (o.call p i t).2 := by
  rcases hrequest : o.request p t with ⟨e' | id, t'⟩
  · have hunbuilt := unbuilt_of_request (congrArg Prod.fst hrequest)
    rw [hrequest] at hunbuilt
    rw [call_of_request_error hrequest]
    exact hunbuilt
  · unfold call at h
    rw [hrequest] at h
    cases h

/-- Nothing is found in the registry of a new owner. -/
theorem find?_start (o : Owner) (key : Pairing) : o.start.registry.find? key = none := by
  cases hfind : o.start.registry.find? key with
  | none => rfl
  | some id =>
    have hempty : o.start.registry.Holds fun _ _ => False := Registry.holds_empty _ _
    exact (hempty.of_find? hfind).elim

/-! ## §2. Destinations -/

/-- A destination has a place for every planned member. -/
theorem isSome_slot? {σ : Schema} {c : Config} {d : Defaults} {spec : Specification}
    (h : c.Resolved σ d spec) {destination : Value}
    (hd : destination.HasType σ (.record c.destination)) {m : MemberPlan} (hm : m ∈ spec.members) :
    (destination.slot? m.declaration).isSome = true := by
  obtain ⟨f, hf, -⟩ := h.plans hm
  obtain ⟨members, rfl, complete, -⟩ := hd.record_inv
  have hplace : m.declaration < members.length := by
    rw [complete]
    exact (List.getElem?_eq_some_iff.mp hf).1
  show members[m.declaration]?.isSome = true
  rw [List.getElem?_eq_getElem hplace]
  rfl

/-! ## §3. The frame -/

/-- **The frame of an update**, for every mapping without hooks that resolves, every
source, parameter and destination, whatever the handlers of nested members do.

1. The members are planned in the order of their priority and then their declaration,
   and a member has no plan just if it is not writable, ignored, or excluded.
2. Members without a plan are as they were, whatever the update comes to.
3. An update that succeeds was spared by a guard and has changed nothing, or every
   planned member has had its turn: it holds its value, or what it had if its
   conditions do not hold.
4. An update that fails has failed at a guard and has changed nothing, or at the turn
   of a planned member: those before it have had their turns, and it and all after it
   are as they were.
5. So it is for an instance of the owner, where the call is admitted.
6. A call that is turned away, in whatever shape, has run no callback and changed
   nothing.
7. A call whose mapper cannot be built has changed nothing, and has run no callback
   but the converters that fit constants and sentinels to members. -/
theorem update_framed (o : Owner) :
    (∀ (c : Config) (session : Session) (spec : Specification),
      (c.resolve o.schema o.defaults session).result = .ok spec → c.before = [] → c.after = [] →
      (spec.members.Pairwise fun m n =>
        m.order < n.order ∨ m.order = n.order ∧ m.declaration < n.declaration) ∧
      (∀ i f, (o.schema.fields c.destination)[i]? = some f →
        ((∀ m ∈ spec.members, m.declaration ≠ i) ↔
          f.writable = false ∨ (c.fateOf o.schema o.defaults i f).1 = .ignored ∨
            (c.fateOf o.schema o.defaults i f).1 = .excluded)) ∧
      ∀ (source : Value) (parameter : Option Value) (d : Value),
        d.HasType o.schema (.record c.destination) →
        (∀ (ω : Type) (nest : Nat → Nesting ω) (t : Trail ω) (r : Except MapError Unit) (d' : Value)
          (t' : Trail ω),
          (spec.update o.schema nest parameter source).run { destination := d, trail := t } =
            (r, { destination := d', trail := t' }) →
          (∀ i, (∀ m ∈ spec.members, m.declaration ≠ i) → d'.slot? i = d.slot? i) ∧
          (r = .ok () → spec.Completes o.schema nest parameter source d t d') ∧
          (∀ e, r = .error e → spec.Fails o.schema nest parameter source d t e d')) ∧
        (∀ (id : Nat) (t : Trail State), mapper? t.outside id = some ⟨spec⟩ →
          (Mapper.mk spec).rejection? o.schema (.updateFrom source parameter d) = none →
          o.invoke id (.updateFrom source parameter d) t =
            Outcome.updating d (spec.update o.schema (o.nest o.nestingLimit id) parameter source)
              t)) ∧
    (∀ (id : Nat) (m : Mapper) (t : Trail State) (i : Invocation) (e : MapError),
      mapper? t.outside id = some m → m.rejection? o.schema i = some e →
      o.invoke id i t = (i.refused e, t)) ∧
    (∀ (p : Pairing) (i : Invocation) (t : Trail State) (e : BuildError),
      (o.call p i t).1 = .error e → o.Unbuilt t (o.call p i t).2) := by
  refine ⟨?_, ?_, fun p i t e h => unbuilt_of_call h⟩
  · intro c session spec h hbefore hafter
    have hspec := Config.resolved_of_ok h
    have hdistinct := Config.distinct_members h
    refine ⟨(Config.wellFormed_of_ok h).sorted, fun i f hf => Config.unplanned_iff h hf, ?_⟩
    intro source parameter d hd
    have hslots : ∀ m ∈ spec.members, (d.slot? m.declaration).isSome = true :=
      fun m hm => isSome_slot? hspec hd hm
    have hnone : spec.before = [] ∧ spec.after = [] :=
      ⟨hspec.before.trans hbefore, hspec.after.trans hafter⟩
    refine ⟨?_, ?_⟩
    · intro ω nest t r d' t' hrun
      have hok : r = .ok () → spec.Completes o.schema nest parameter source d t d' := by
        rintro rfl
        exact Specification.completes_of_ok hnone.1 hnone.2 hdistinct hslots hrun
      have herror : ∀ e, r = .error e → spec.Fails o.schema nest parameter source d t e d' := by
        rintro e rfl
        exact Specification.fails_of_error hnone.1 hnone.2 hdistinct hslots hrun
      refine ⟨fun i hi => ?_, hok, herror⟩
      cases r with
      | ok u => exact (hok rfl).slot?_unplanned hi
      | error e => exact (herror e rfl).slot?_unplanned hi
    · intro id t hm hadmitted
      rw [invoke_eq hm, Mapper.invoke_updateFrom hadmitted]
  · intro id m t i e hm hrejected
    rw [invoke_eq hm]
    exact Mapper.invoke_of_rejection hrejected t

/-- Lines of tickets whose kind is spelled out from a number, and with a setting for
a member that there is not. -/
def misspelledLine : Config where
  source := "Ticket"
  destination := "Line"
  members := [{ name := "kind", origins := [.constant (.int .i64 5)] },
    { name := "missing", ignored := true }]
  converters := ⟨[{
    source := .prim (.int .i64), target := .prim .text, label := some "spell"
    body := .plain fun _ => .text "five" }]⟩

/-- An owner of that mapping alone. -/
def misspellingOwner : Owner where
  schema := Config.ticketSchema
  configs := [misspelledLine]
  hash _ := 0

theorem compile_misspelledLine : misspellingOwner.compile misspelledLine =
    (.error (.invalid "Ticket -> Line" [.unknownMember "missing"]), ⟨[some "spell"]⟩) := by
  with_unfolding_all rfl

/-- **A build that fails has run a converter**: the number was spelled out before the
call was turned away. -/
theorem failed_build_runs_converter :
    let line : Pairing := ⟨.record "Ticket", .record "Line", none⟩
    let ticket : Value := .record "Ticket" [.text ""]
    let r := misspellingOwner.call line
      (.update ticket (.record "Line" [.text "", .text "", .text "", .text "", .text ""]))
      { outside := misspellingOwner.start }
    r.1 = .error (.invalid "Ticket -> Line" [.unknownMember "missing"]) ∧
      r.2.journal.labels = ["spell"] := by
  intro line ticket r
  have hcompile := compile_misspelledLine
  have hrequest := request_of_failed (o := misspellingOwner) (p := line) (c := misspelledLine)
    (t := { outside := misspellingOwner.start }) rfl (find?_start _ _)
    (congrArg Prod.fst hcompile)
  rw [hcompile] at hrequest
  have hcall : r = _ := call_of_request_error hrequest _
  rw [hcall]
  exact ⟨rfl, rfl⟩

/-- A view is updated to the label of a note, and a pairing that nothing is configured
for leaves everything as it is. -/
theorem update_framed_note :
    let note : Value := .record "Note" [.absent (.prim .text)]
    let view : Value := .record "View" [.text "old"]
    let spec : Specification := { source := "Note", destination := "View", members := [labelPlan] }
    let nest : Nat → Nesting Unit := fun _ => Conversion.unreachable
    let t : Trail Unit := { outside := () }
    let views : Pairing := ⟨.record "View", .record "Note", none⟩
    (noteView.resolve noteSchema {} { pair := "" }).result = .ok spec ∧
      view.HasType noteSchema (.record "View") ∧
      (spec.update noteSchema nest none note).run { destination := view, trail := t } =
        (.ok (), { destination := .record "View" [.text "none"], trail := t }) ∧
      spec.Completes noteSchema nest none note view t (.record "View" [.text "none"]) ∧
      notesOwner.Unbuilt { outside := notesOwner.start }
        (notesOwner.call views (.construct view) { outside := notesOwner.start }).2 := by
  intro note view spec nest t views
  have hview : view.HasType noteSchema (.record "View") := by
    refine .record rfl ?_
    intro i v f hv hf
    cases i with
    | zero =>
      cases hv
      cases hf
      exact .text _
    | succ i => cases hv
  have hrun : (spec.update noteSchema nest none note).run { destination := view, trail := t } =
      (.ok (), { destination := .record "View" [.text "none"], trail := t }) := rfl
  have h := update_framed notesOwner
  have hnote := (h.1 noteView _ _ (resolve_noteView "") rfl rfl).2.2 note none view hview
  refine ⟨resolve_noteView "", hview, hrun, ((hnote.1 Unit nest t _ _ _ hrun).2.1 rfl), ?_⟩
  exact h.2.2 views (.construct view) _ _ rfl

end Owner

end RecordMap
