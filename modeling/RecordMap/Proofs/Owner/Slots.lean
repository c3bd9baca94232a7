import RecordMap.Proofs.Nesting.Confined
import RecordMap.Proofs.Owner.Identity
import RecordMap.Proofs.Owner.Runs

/-!
# Slots

The link of a nested member is a slot of its instance.  It is filled when the member is
first reached, by whichever call that is, and from then on holds the same instance
(`Owner.State.KeptIn`): the very one that the registry has for the pairing nested there
(`Owner.Slotted`).

All that a call does to the state it does where it follows a link.  So what holds across
following links holds across calls (`Owner.Growth.nest`, `Owner.Growth.invoke`), and
then across operations.
-/

namespace RecordMap

-- Powers are the built-in ones, whichever library is in scope.
attribute [local instance (high)] instPowNat

namespace Owner

/-! ## §1. States that grow -/

/-- **A state is kept in another**: all its instances are there, and every slot that is
filled in it holds the same there. -/
structure State.KeptIn (s s' : State) : Prop where
  instances : s.Extends s'
  slots : ∀ member child, s.links.lookup member = some child →
    s'.links.lookup member = some child

/-- **Every filled slot holds the instance of the registry** for the pairing nested
there. -/
structure Slotted (o : Owner) (s : State) : Prop where
  indexed : o.Indexed s
  filled : ∀ id i child, s.links.lookup (id, i) = some child →
    ∃ m p c, mapper? s id = some m ∧ m.spec.NestsAt i p ∧ o.choose? p = some c ∧
      s.registry.find? c.pairing = some child

/-- A state that grew out of another keeps it, and keeps its slots right. -/
structure Grew (o : Owner) (s s' : State) : Prop where
  kept : s.KeptIn s'
  slotted : o.Slotted s → o.Slotted s'

/-- **A relation of states that calls respect**: it is a preorder, and following a link
respects it wherever the link may be followed, as the links of an instance may. -/
structure Growth (o : Owner) (G : State → State → Prop)
    (May : State → Nat × Nat → Pairing → Prop) : Prop where
  refl : ∀ s, G s s
  trans : ∀ {s s' s''}, G s s' → G s' s'' → G s s''
  follow : ∀ {t : Trail State} {member p}, May t.outside member p →
    G t.outside ((o.follow member p).run t).2.outside
  may : ∀ {s s' id m i p}, mapper? s id = some m → m.spec.NestsAt i p → G s s' →
    May s' (id, i) p

variable {o : Owner} {s s' s'' : State} {id i child : Nat} {p : Pairing} {m : Mapper}
  {t : Trail State} {member : Nat × Nat}

theorem State.KeptIn.refl (s : State) : s.KeptIn s := ⟨.refl s, fun _ _ h => h⟩

theorem State.KeptIn.trans (h : s.KeptIn s') (h' : s'.KeptIn s'') : s.KeptIn s'' := by
  refine ⟨h.instances.trans h'.instances, ?_⟩
  intro member child hlink
  have hlink' := h.slots member child hlink
  exact h'.slots member child hlink'

theorem Grew.refl (s : State) : o.Grew s s := ⟨.refl s, fun h => h⟩

theorem Grew.trans (h : o.Grew s s') (h' : o.Grew s' s'') : o.Grew s s'' :=
  ⟨h.kept.trans h'.kept, fun hs => h'.slotted (h.slotted hs)⟩

/-! ## §2. Requests and links -/

/-- No request has to do with slots. -/
theorem Served.links_eq {r : Request} {reply : Reply} (hs : o.Served s r reply s') :
    s'.links = s.links := by
  cases hs <;> rfl

theorem Served.grew {r : Request} {reply : Reply} (hs : o.Served s r reply s') : o.Grew s s' := by
  have hkept : s.KeptIn s' := by
    refine ⟨hs.extends, fun member child hlink => ?_⟩
    rw [hs.links_eq]
    exact hlink
  refine ⟨hkept, fun h => ⟨hs.indexed h.indexed, fun id i child hlink => ?_⟩⟩
  rw [hs.links_eq] at hlink
  obtain ⟨m, p, c, hm, hnests, hc, hfind⟩ := h.filled id i child hlink
  exact ⟨m, p, c, hkept.instances id m hm, hnests, hc, (hs.find?_iff h.indexed).mpr (.inl hfind)⟩

/-- A slot that was empty is filled. -/
theorem keptIn_link (h : s.links.lookup member = none) (child : Nat) :
    s.KeptIn { s with links := (member, child) :: s.links } := by
  refine ⟨.refl s, fun member' child' hlink => ?_⟩
  show List.lookup member' ((member, child) :: s.links) = some child'
  rw [List.lookup_cons]
  split
  · next heq =>
    rw [eq_of_beq heq, h] at hlink
    cases hlink
  · exact hlink

/-- A slot that is filled with the instance of the registry. -/
theorem Slotted.link (h : o.Slotted s) (hm : mapper? s id = some m) (hnests : m.spec.NestsAt i p)
    {c : Config} (hc : o.choose? p = some c) (hfind : s.registry.find? c.pairing = some child) :
    o.Slotted { s with links := ((id, i), child) :: s.links } := by
  have hindexed := h.indexed
  refine ⟨⟨hindexed.linked, hindexed.index, hindexed.compiled, hindexed.builds⟩, ?_⟩
  intro id' i' child' hlink
  change List.lookup (id', i') (((id, i), child) :: s.links) = some child' at hlink
  rw [List.lookup_cons] at hlink
  split at hlink
  · next heq =>
    cases eq_of_beq heq
    cases hlink
    exact ⟨m, p, c, hm, hnests, hc, hfind⟩
  · exact h.filled id' i' child' hlink

/-- A request that gives an instance finds it in the registry from then on. -/
theorem find?_of_request {t' : Trail State} (h : o.Indexed t.outside)
    (hr : o.request p t = (.ok child, t')) :
    ∃ c, o.choose? p = some c ∧ t'.outside.registry.find? c.pairing = some child := by
  have hserved := served_erased (o := o) t p
  rw [hr] at hserved
  obtain ⟨c, hc⟩ : ∃ c, o.choose? p = some c := by
    cases hc : o.choose? p with
    | some c => exact ⟨c, rfl⟩
    | none =>
      rw [request_of_unknown hc] at hr
      cases hr
  exact ⟨c, hc, (hserved.find?_iff h).mpr (.inr ⟨rfl, c, hc, rfl⟩)⟩

/-- **Following a link** keeps the state. -/
theorem keptIn_follow (t : Trail State) (member : Nat × Nat) (p : Pairing) :
    t.outside.KeptIn ((o.follow member p).run t).2.outside := by
  cases hlink : t.outside.links.lookup member with
  | some child =>
    rw [run_follow_of_linked hlink]
    exact .refl _
  | none =>
    cases halive : t.outside.alive with
    | false =>
      rw [run_follow_of_dropped hlink halive]
      exact .refl _
    | true =>
      rw [run_follow_of_unlinked hlink halive]
      have hserved := served_erased (o := o) t p
      rcases hr : o.request p t with ⟨e | child, t'⟩
      · rw [hr] at hserved
        exact hserved.grew.kept
      · rw [hr] at hserved
        rw [← hserved.links_eq] at hlink
        exact hserved.grew.kept.trans (keptIn_link hlink child)

/-- **Following a link of an instance** keeps the slots right. -/
theorem slotted_follow (h : o.Slotted t.outside) (hm : mapper? t.outside id = some m)
    (hnests : m.spec.NestsAt i p) : o.Slotted ((o.follow (id, i) p).run t).2.outside := by
  cases hlink : t.outside.links.lookup (id, i) with
  | some child =>
    rw [run_follow_of_linked hlink]
    exact h
  | none =>
    cases halive : t.outside.alive with
    | false =>
      rw [run_follow_of_dropped hlink halive]
      exact h
    | true =>
      rw [run_follow_of_unlinked hlink halive]
      have hserved := served_erased (o := o) t p
      rcases hr : o.request p t with ⟨e | child, t'⟩
      · rw [hr] at hserved
        exact hserved.grew.slotted h
      · rw [hr] at hserved
        obtain ⟨c, hc, hfind⟩ := find?_of_request h.indexed hr
        exact (hserved.grew.slotted h).link (hserved.extends id m hm) hnests hc hfind

/-- A link that has been followed is a slot that is filled. -/
theorem lookup_of_follow {t' : Trail State} (h : (o.follow member p).run t = (.ok child, t')) :
    t'.outside.links.lookup member = some child := by
  cases hlink : t.outside.links.lookup member with
  | some child' =>
    rw [run_follow_of_linked hlink] at h
    cases h
    exact hlink
  | none =>
    cases halive : t.outside.alive with
    | false =>
      rw [run_follow_of_dropped hlink halive] at h
      cases h
    | true =>
      rw [run_follow_of_unlinked hlink halive] at h
      rcases hr : o.request p t with ⟨e | child', u⟩
      · rw [hr] at h
        cases h
      · rw [hr] at h
        cases h
        exact List.lookup_cons_self

/-- All links can be followed without loss. -/
theorem growth_keptIn (o : Owner) : o.Growth State.KeptIn fun _ _ _ => True where
  refl := .refl
  trans := .trans
  follow := fun _ => keptIn_follow _ _ _
  may := fun _ _ _ => trivial

/-- The links of an instance can be followed with the slots right. -/
theorem growth_grew (o : Owner) : o.Growth o.Grew fun s member p =>
    ∃ m, mapper? s member.1 = some m ∧ m.spec.NestsAt member.2 p where
  refl := .refl
  trans := .trans
  follow := by
    rintro t ⟨id, i⟩ p ⟨m, hm, hnests⟩
    exact ⟨keptIn_follow t (id, i) p, fun h => slotted_follow h hm hnests⟩
  may := fun hm hnests h => ⟨_, h.kept.instances _ _ hm, hnests⟩

/-! ## §3. Calls and operations -/

section

variable {G : State → State → Prop} {May : State → Nat × Nat → Pairing → Prop}

/-- **A nested call** respects what following links does. -/
theorem Growth.nest (hG : o.Growth G May) (limit : Nat) (v : Value) (q : Option Value)
    (hmay : May t.outside (id, i) p) : G t.outside ((o.nest limit id i p v q).run t).2.outside := by
  induction limit generalizing t id i p v q with
  | zero => exact hG.refl _
  | succ limit ih =>
    have hnest : (o.nest (limit + 1) id i p v q).run t =
        (o.follow (id, i) p >>= fun child => mapper child >>= fun m =>
          m.constructAny o.schema (o.nest limit child) v q).run t := rfl
    rw [hnest]
    have hstep := hG.follow hmay
    rcases hfollow : (o.follow (id, i) p).run t with ⟨e | child, t₁⟩
    · rw [hfollow] at hstep
      rw [Run.run_bind_error hfollow]
      exact hstep
    · rw [hfollow] at hstep
      rw [Run.run_bind_ok hfollow]
      cases hm : mapper? t₁.outside child with
      | none =>
        rw [Run.run_bind_error (run_mapper_of_missing hm)]
        exact hstep
      | some m =>
        rw [Run.run_bind_ok (run_mapper hm)]
        -- The nested mapper starts where the link has led.
        have hnested : ∀ j p' w, m.spec.Hands o.schema v j p' w →
            Trail.Confined (G t₁.outside) (fun _ => True) (o.nest limit child j p' w
              (m.spec.handedOn (m.taken (.constructAny v q)))) := by
          intro j p' w hhands u hu
          have hnext := ih w (m.spec.handedOn (m.taken (.constructAny v q)))
            (hG.may hm hhands.nestsAt hu)
          exact ⟨hG.trans hu hnext, Run.result_any _⟩
        have hconfined := m.confined_constructAny (fun _ _ => trivial) v q (fun _ _ => trivial)
          (fun _ _ _ => trivial) hnested
        exact hG.trans hstep (hconfined t₁ (hG.refl _)).1

/-- **An invocation** respects what following links does. -/
theorem Growth.invoke (hG : o.Growth G May) (t : Trail State) (id : Nat) (i : Invocation) :
    G t.outside (o.invoke id i t).2.outside := by
  cases hm : mapper? t.outside id with
  | none =>
    rw [invoke_of_missing hm]
    exact hG.refl _
  | some m =>
    rw [invoke_eq hm]
    have hnested : ∀ s, i.source? = some s → ∀ j p w, m.spec.Hands o.schema s j p w →
        Trail.Confined (G t.outside) (fun _ => True)
          (o.nest o.nestingLimit id j p w (m.spec.handedOn (m.taken i))) := by
      intro s _ j p w hhands u hu
      have hnext := hG.nest o.nestingLimit w (m.spec.handedOn (m.taken i))
        (hG.may hm hhands.nestsAt hu)
      exact ⟨hG.trans hu hnext, Run.result_any _⟩
    exact (m.confined_invoke (fun _ _ => trivial) (fun _ _ => trivial)
      (fun _ _ _ _ => trivial) hnested (hG.refl t.outside)).2

end

theorem grew_call (p : Pairing) (i : Invocation) (t : Trail State) :
    o.Grew t.outside (o.call p i t).2.outside := by
  have hserved := served_erased (o := o) t p
  unfold call
  rcases hr : o.request p t with ⟨e | id, t'⟩
  · rw [hr] at hserved
    exact hserved.grew
  · rw [hr] at hserved
    exact hserved.grew.trans ((growth_grew o).invoke t' id i)

/-- Looking for a mapper changes nothing but the counters. -/
theorem grew_tryRequest (p : Pairing) (s : State) : o.Grew s (o.tryRequest p s).2 := by
  unfold tryRequest
  cases o.choose? p with
  | none => exact .refl s
  | some c =>
    dsimp only
    rw [Registry.tryGet_eq]
    have hcount : ∀ hits misses,
        o.Grew s { s with registry := s.registry.count hits misses } := by
      intro hits misses
      refine ⟨⟨.refl s, fun _ _ h => h⟩, fun h => ⟨?_, h.filled⟩⟩
      exact ⟨h.indexed.linked.count hits misses, h.indexed.index, h.indexed.compiled,
        h.indexed.builds⟩
    cases s.registry.find? c.pairing with
    | some id => exact hcount 1 0
    | none => exact hcount 0 1

/-- **One operation** keeps the state, and the slots right. -/
theorem grew_perform (s : State) (op : Operation) : o.Grew s (o.perform s op) := by
  cases op with
  | request p => exact (served_erased { outside := s } p).grew
  | tryRequest p => exact grew_tryRequest p s
  | nested p => exact (served_erased { outside := s } p).grew
  | call p i => exact grew_call p i { outside := s }
  | invoke id i => exact (growth_grew o).invoke { outside := s } id i
  | drop =>
    refine ⟨⟨.refl s, fun _ _ h => h⟩, fun h => ⟨?_, h.filled⟩⟩
    exact ⟨h.indexed.linked, h.indexed.index, h.indexed.compiled, h.indexed.builds⟩

/-- **Operations** keep the state they start from, and its slots right. -/
theorem grew_operations (s : State) (ops : List Operation) : o.Grew s (ops.foldl o.perform s) := by
  induction ops generalizing s with
  | nil => exact .refl s
  | cons op rest ih => exact (grew_perform s op).trans (ih (o.perform s op))

theorem after_append (ops ops' : List Operation) :
    o.after (ops ++ ops') = ops'.foldl o.perform (o.after ops) := by
  unfold after
  rw [List.foldl_append]

theorem keptIn_after (ops ops' : List Operation) : (o.after ops).KeptIn (o.after (ops ++ ops')) := by
  rw [after_append]
  exact (grew_operations (o.after ops) ops').kept

/-- **In every state reached** each filled slot holds the instance of the registry. -/
theorem slotted_after (hoptions : o.options.initialSize ≤ 2 ^ (63 : Nat)) (ops : List Operation) :
    o.Slotted (o.after ops) := by
  have hstart : o.Slotted o.start := ⟨indexed_start hoptions, fun _ _ _ h => nomatch h⟩
  exact (grew_operations o.start ops).slotted hstart

/-- A request for the pairing of a filled slot gives the instance in it, and builds
nothing. -/
theorem request_of_slot (h : o.Slotted s) (hm : mapper? s id = some m)
    (hnests : m.spec.NestsAt i p) (hlink : s.links.lookup (id, i) = some child) (j : Journal) :
    o.request p { journal := j, outside := s } = (.ok child,
      { journal := j, outside := { s with registry := s.registry.count 1 0 } }) := by
  obtain ⟨m', q, c, hm', hnests', hc, hfind⟩ := h.filled id i child hlink
  obtain rfl : m = m' := Option.some.inj (hm.symm.trans hm')
  -- A member nests one pairing only.
  obtain ⟨c', _, hcompile⟩ := h.indexed.compiled id m hm
  obtain rfl := (resolved_of_compile hcompile).nestsAt_unique hnests hnests'
  exact request_of_hit (t := { journal := j, outside := s }) hc hfind

end Owner

end RecordMap
