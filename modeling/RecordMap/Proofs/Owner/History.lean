import RecordMap.Proofs.Owner.Runs
import RecordMap.Proofs.Plan.Absence

/-!
# History independence

`Owner.callAfresh` is a call that remembers nothing: the mapper is compiled on the
spot, and so is every mapper nested in it.  A call of an owner comes to just that
in every consistent state (`Owner.call_spec`), and by what operations preserve it
does so after any of them.

The journals may differ, but only in the builds: what the call itself runs is the
journal of the call without memory.
-/

namespace RecordMap

namespace Owner

variable {o : Owner} {s : State} {id : Nat} {p : Pairing} {t : Trail State}

/-- **A call without memory**: its result, and the callbacks it runs. -/
def callAfresh (o : Owner) (p : Pairing) (i : Invocation) : Except BuildError Outcome × Journal :=
  match o.mapperOf p with
  | .ok m =>
      let (r, t) := m.invoke o.schema (fun _ => o.nestAfresh o.nestingLimit) i { outside := () }
      (.ok r, t.journal)
  | .error e => (.error e, {})

/-- An instance that serves the pairing is as good as the call without memory. -/
theorem invoke_spec (h : o.Consistent t.outside) (halive : t.outside.alive = true)
    (hjournal : o.Interleaved {} t.journal) (hserves : o.Serves t.outside id p) (i : Invocation) :
    Except.ok (o.invoke id i t).1 = (o.callAfresh p i).1 ∧
      o.Interleaved (o.callAfresh p i).2 (o.invoke id i t).2.journal := by
  obtain ⟨m, hm, hp⟩ := hserves
  -- The owner is there, so the call is strict and cannot lapse.
  have htracks : o.Tracks true t.outside t ({ outside := () } : Trail Unit) :=
    ⟨h, .refl _, fun _ => halive, hjournal⟩
  have hcall : o.callAfresh p i =
      (.ok (m.invoke o.schema (fun _ => o.nestAfresh o.nestingLimit) i { outside := () }).1,
        (m.invoke o.schema (fun _ => o.nestAfresh o.nestingLimit) i { outside := () }).2.journal) := by
    unfold callAfresh
    rw [hp]
  rw [hcall]
  rcases invoke_matches hm htracks i with ⟨_, _, hlapse⟩ | ⟨hresult, htrail⟩
  · cases hlapse.lax
  · exact ⟨congrArg _ hresult, htrail.journal⟩

/-- **A call in a consistent state** comes to the call without memory. -/
theorem call_spec (h : o.Consistent s) (halive : s.alive = true) (p : Pairing) (i : Invocation) :
    (o.call p i { outside := s }).1 = (o.callAfresh p i).1 ∧
      o.Interleaved (o.callAfresh p i).2 (o.call p i { outside := s }).2.journal := by
  obtain ⟨hadv, hres⟩ := request_spec (t := { outside := s }) h p
  have hjournal := hadv.journal {} .start
  unfold call
  rcases hr : o.request p { outside := s } with ⟨e | id, t⟩
  · rw [hr] at hres hjournal
    have hcall : o.callAfresh p i = (.error e, {}) := by
      unfold callAfresh
      rw [hres]
    rw [hcall]
    exact ⟨rfl, hjournal⟩
  · rw [hr] at hadv hres hjournal
    exact invoke_spec hadv.consistent (hadv.alive.trans halive) hjournal hres i

/-- An instance requested at some time serves its pairing ever after. -/
theorem serves_after {before since : List Operation} (hsince : .drop ∉ since)
    (hid : (o.request p { outside := o.after before }).1 = .ok id) :
    o.Serves (o.after (before ++ .request p :: since)) id p := by
  obtain ⟨hadv, hres⟩ := request_spec (t := { outside := o.after before })
    (consistent_after o before) p
  rw [hid] at hres
  have hkeeps := keeps_operations hadv.consistent hsince
  have hafter : o.after (before ++ .request p :: since) =
      since.foldl o.perform (o.request p { outside := o.after before }).2.outside := by
    unfold after
    rw [List.foldl_append]
    rfl
  rw [hafter]
  exact hres.mono hkeeps.instances

/-- Sheets of pages, note by note. -/
def pageSheet : Config where
  source := "Page"
  destination := "Sheet"
  members := [{ name := "notes", origins := [.nested "notes" none] }]

/-- An owner of both mappings. -/
def notesOwner : Owner where
  schema := noteSchema
  configs := [noteView, pageSheet]
  hash _ := 0

theorem mapperOf_note :
    notesOwner.mapperOf ⟨.record "Note", .record "View", none⟩ =
      .ok ⟨{ source := "Note", destination := "View", members := [labelPlan] }⟩ :=
  congrArg (Except.map Mapper.mk) (resolve_noteView _)

/-- **Caching is transparent.**  After any operations a call of a pairing gives
what it gives as the first operation of a new owner: the same value or destination
and the same error, and so does the invocation of an instance that was requested
at any time before.  The callbacks run are the same but for those of builds. -/
theorem history_independent (o : Owner) {ops : List Operation} (hops : .drop ∉ ops) (p : Pairing)
    (i : Invocation) :
    (o.call p i { outside := o.after ops }).1 = (o.call p i { outside := o.start }).1 ∧
    o.Interleaved (o.callAfresh p i).2 (o.call p i { outside := o.start }).2.journal ∧
    o.Interleaved (o.callAfresh p i).2 (o.call p i { outside := o.after ops }).2.journal ∧
    ∀ before since id, ops = before ++ .request p :: since →
      (o.request p { outside := o.after before }).1 = .ok id →
      Except.ok (o.invoke id i { outside := o.after ops }).1 =
          (o.call p i { outside := o.start }).1 ∧
        o.Interleaved (o.callAfresh p i).2 (o.invoke id i { outside := o.after ops }).2.journal := by
  -- Both calls come to the one without memory.
  have hfirst := call_spec (consistent_start o) rfl p i
  have hlater := call_spec (consistent_after o ops) (alive_after hops) p i
  refine ⟨hlater.1.trans hfirst.1.symm, hfirst.2, hlater.2, ?_⟩
  rintro before since id rfl hid
  have hsince : .drop ∉ since := by
    intro h
    exact hops (List.mem_append_right _ (List.mem_cons_of_mem _ h))
  have hserves := serves_after hsince hid
  have hheld := invoke_spec (t := { outside := o.after (before ++ .request p :: since) })
    (consistent_after o _) (alive_after hops) .start hserves i
  exact ⟨hheld.1.trans hfirst.1.symm, hheld.2⟩

/-- Viewing a note once pages have been mapped, and the note mapper reached through
them, is as viewing it first. -/
theorem history_independent_note :
    let note : Value := .record "Note" [.absent (.prim .text)]
    let notes : Pairing := ⟨.record "Note", .record "View", none⟩
    let pages : Pairing := ⟨.record "Page", .record "Sheet", none⟩
    let ops : List Operation :=
      [.call pages (.construct (.record "Page" [.seq (.record "Note") [note]])), .nested notes,
        .request pages, .tryRequest notes, .invoke 0 (.construct note)]
    .drop ∉ ops ∧
      (notesOwner.call notes (.construct note) { outside := notesOwner.after ops }).1 =
        .ok (.constructed (some (.record "View" [.text "none"]))) := by
  intro note notes pages ops
  have hops : .drop ∉ ops := by simp [ops]
  have hfirst := (call_spec (consistent_start notesOwner) rfl notes (.construct note)).1
  have hafresh : (notesOwner.callAfresh notes (.construct note)).1 =
      .ok (.constructed (some (.record "View" [.text "none"]))) := by
    unfold callAfresh
    rw [mapperOf_note]
    rfl
  have h := history_independent notesOwner hops notes (.construct note)
  exact ⟨hops, h.1.trans (hfirst.trans hafresh)⟩

end Owner

end RecordMap
