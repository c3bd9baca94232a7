import RecordMap.Owner
import RecordMap.Proofs.Owner.Registry
import RecordMap.Proofs.Plan.Resolve

/-!
# Consistent owners

Three things survive a call: the registry, the instances built, and the links of
nested members.  They are *consistent* with the configurations of the owner when
each of them only remembers what could be had by resolving and compiling again: a
registered instance is the mapper compiled for its key, and a link leads to an
instance that serves the pairing nested there.

`Owner.mapperOf` says, without any state, what a request for a pairing comes to.
A request gives an instance of just that mapper, or just that error, and keeps
the state consistent (`Owner.request_spec`); so does following a link
(`Owner.follow_spec`).
-/

namespace RecordMap

namespace Owner

/-! ## §1. What a pairing comes to -/

/-- **The mapper of a pairing**, resolved and compiled on the spot. -/
def mapperOf (o : Owner) (p : Pairing) : Except BuildError Mapper :=
  match o.choose? p with
  | none => .error (.notRegistered (p.name o.schema))
  | some c => (o.compile c).1

/-- The instance is the mapper of the pairing. -/
def Serves (o : Owner) (s : State) (id : Nat) (p : Pairing) : Prop :=
  ∃ m, mapper? s id = some m ∧ o.mapperOf p = .ok m

/-- The instances of one state are instances of another. -/
def State.Extends (s s' : State) : Prop :=
  ∀ id m, mapper? s id = some m → mapper? s' id = some m

/-- **The state remembers only what the configurations say.** -/
structure Consistent (o : Owner) (s : State) : Prop where
  compiled : ∀ id m, mapper? s id = some m → ∃ c ∈ o.configs, (o.compile c).1 = .ok m
  registered : s.registry.Holds fun key id => ∃ c m,
    o.configs.find? (·.pairing == key) = some c ∧ (o.compile c).1 = .ok m ∧ mapper? s id = some m
  linked : ∀ id i child, ((id, i), child) ∈ s.links →
    ∃ m, mapper? s id = some m ∧ ∀ p, m.spec.NestsAt i p → o.Serves s child p

variable {o : Owner} {s s' s'' : State} {id : Nat} {p : Pairing} {c : Config} {m : Mapper}

theorem State.Extends.refl (s : State) : s.Extends s := fun _ _ h => h

theorem State.Extends.trans (h : s.Extends s') (h' : s'.Extends s'') : s.Extends s'' := by
  intro id m hm
  have hm' := h id m hm
  exact h' id m hm'

theorem Serves.mono (h : o.Serves s id p) (hs : s.Extends s') : o.Serves s' id p := by
  obtain ⟨m, hm, hp⟩ := h
  exact ⟨m, hs id m hm, hp⟩

/-- A chosen configuration is the one registered under its own pairing. -/
theorem find?_of_choose? (h : o.choose? p = some c) :
    o.configs.find? (·.pairing == c.pairing) = some c := by
  unfold choose? at h
  rcases Option.or_eq_some_iff.mp h with h | ⟨_, h⟩
  · have hkey : c.pairing = p := by simpa using List.find?_some h
    rw [hkey]
    exact h
  · have hkey : c.pairing = p.plain := by simpa using List.find?_some h
    rw [hkey]
    exact h

theorem mapperOf_of_choose? (h : o.choose? p = some c) : o.mapperOf p = (o.compile c).1 := by
  unfold mapperOf
  rw [h]

/-- What a mapper is compiled from has resolved to its plan. -/
theorem resolve_of_compile (h : (o.compile c).1 = .ok m) :
    (c.resolve o.schema o.defaults { pair := c.pairing.name o.schema }).result = .ok m.spec := by
  unfold compile at h
  dsimp only at h
  cases hr : (c.resolve o.schema o.defaults { pair := c.pairing.name o.schema }).result with
  | error e =>
    rw [hr] at h
    cases h
  | ok spec =>
    rw [hr] at h
    cases h
    rfl

theorem resolved_of_compile (h : (o.compile c).1 = .ok m) :
    c.Resolved o.schema o.defaults m.spec :=
  Config.resolved_of_ok (resolve_of_compile h)

/-- A chosen configuration is for the types asked for. -/
theorem types_of_choose? (h : o.choose? p = some c) :
    c.pairing.source = p.source ∧ c.pairing.destination = p.destination := by
  unfold choose? at h
  rcases Option.or_eq_some_iff.mp h with h | ⟨_, h⟩
  · have hkey : c.pairing = p := by simpa using List.find?_some h
    rw [hkey]
    exact ⟨rfl, rfl⟩
  · have hkey : c.pairing = p.plain := by simpa using List.find?_some h
    rw [hkey]
    exact ⟨rfl, rfl⟩

theorem mem_of_choose? (h : o.choose? p = some c) : c ∈ o.configs :=
  List.mem_of_find?_eq_some (find?_of_choose? h)

/-- **The mapper of a pairing** is compiled from a configuration for its types. -/
theorem compiled_of_mapperOf (h : o.mapperOf p = .ok m) :
    ∃ c ∈ o.configs, (o.compile c).1 = .ok m ∧ .record m.spec.source = p.source ∧
      .record m.spec.destination = p.destination := by
  unfold mapperOf at h
  cases hc : o.choose? p with
  | none =>
    rw [hc] at h
    cases h
  | some c =>
    rw [hc] at h
    have hspec := resolved_of_compile h
    obtain ⟨hsource, hdest⟩ := types_of_choose? hc
    refine ⟨c, mem_of_choose? hc, h, ?_, ?_⟩
    · rw [hspec.source]
      exact hsource
    · rw [hspec.destination]
      exact hdest

theorem consistent_start (o : Owner) : o.Consistent o.start := by
  refine ⟨?_, Registry.holds_empty _ _, ?_⟩
  · intro id m h
    cases h
  · intro id i child h
    cases h

/-! ## §2. Steps of an owner -/

/-- The callbacks run by a call and by the builds in it: `all` is `own` with whole
builds put between its entries. -/
inductive Interleaved (o : Owner) : Journal → Journal → Prop where
  | start : Interleaved o {} {}
  | note {own all : Journal} (h : Interleaved o own all) (label : Option String) :
      Interleaved o (own.enter label) (all.enter label)
  | build {own all : Journal} (h : Interleaved o own all) {c : Config} (hc : c ∈ o.configs) :
      Interleaved o own (all ++ (o.compile c).2)

/-- **A step on the trail of a call**: it keeps the state consistent and all the
instances in it, and adds nothing to the journal but builds. -/
structure Advances (o : Owner) (t t' : Trail State) : Prop where
  consistent : o.Consistent t'.outside
  keeps : t.outside.Extends t'.outside
  alive : t'.outside.alive = t.outside.alive
  journal : ∀ own, o.Interleaved own t.journal → o.Interleaved own t'.journal

theorem Advances.refl {t : Trail State} (h : o.Consistent t.outside) : o.Advances t t :=
  ⟨h, .refl _, rfl, fun _ hj => hj⟩

/-- Counters of the registry do not matter. -/
theorem Consistent.setRegistry (h : o.Consistent s) {r : Registry Pairing Nat}
    (hr : r.Holds fun key id => ∃ c m,
      o.configs.find? (·.pairing == key) = some c ∧ (o.compile c).1 = .ok m ∧
        mapper? s id = some m) :
    o.Consistent { s with registry := r } :=
  ⟨h.compiled, hr, h.linked⟩

theorem extends_push (s : State) (m : Mapper) :
    s.Extends { s with mappers := s.mappers.push m } := by
  intro id m' h
  obtain ⟨hlt, hget⟩ := Array.getElem?_eq_some_iff.mp h
  show (s.mappers.push m)[id]? = some m'
  rw [Array.getElem?_push_lt hlt, hget]

/-- **A new instance**, compiled and published, keeps the state consistent. -/
theorem Consistent.add (h : o.Consistent s) {r : Registry Pairing Nat}
    (hr : r.Holds fun key id => ∃ c m,
      o.configs.find? (·.pairing == key) = some c ∧ (o.compile c).1 = .ok m ∧
        mapper? s id = some m)
    (hc : o.configs.find? (·.pairing == c.pairing) = some c) (hm : (o.compile c).1 = .ok m) :
    o.Consistent { s with
      registry := r.publish c.pairing s.mappers.size, mappers := s.mappers.push m } := by
  have hkeeps := extends_push s m
  have hnew : (s.mappers.push m)[s.mappers.size]? = some m := Array.getElem?_push_size
  refine ⟨?_, ?_, ?_⟩
  -- Instances are only ever added, so what held of them still does.
  · intro id m' hm'
    change (s.mappers.push m)[id]? = some m' at hm'
    rw [Array.getElem?_push] at hm'
    split at hm'
    · cases hm'
      exact ⟨c, List.mem_of_find?_eq_some hc, hm⟩
    · exact h.compiled id m' hm'
  · refine Registry.Holds.publish (hr.mono ?_) ⟨c, m, hc, hm, hnew⟩
    rintro key id ⟨c', m', hc', hm', hid⟩
    exact ⟨c', m', hc', hm', hkeeps id m' hid⟩
  · intro id i child hlink
    obtain ⟨m', hm', hserves⟩ := h.linked id i child hlink
    exact ⟨m', hkeeps id m' hm', fun p hp => (hserves p hp).mono hkeeps⟩

/-- **A request** gives an instance of the mapper of the pairing, or the error it
comes to, whatever happened before. -/
theorem request_spec {t : Trail State} (h : o.Consistent t.outside) (p : Pairing) :
    o.Advances t (o.request p t).2 ∧
      match (o.request p t).1 with
      | .ok id => o.Serves (o.request p t).2.outside id p
      | .error e => o.mapperOf p = .error e := by
  unfold request
  cases hc : o.choose? p with
  | none =>
    refine ⟨.refl h, ?_⟩
    show o.mapperOf p = .error _
    unfold mapperOf
    rw [hc]
  | some c =>
    have hof := mapperOf_of_choose? hc
    have hfind := find?_of_choose? hc
    dsimp only
    unfold Registry.getOrCreate
    have hfst := Registry.tryGet_fst t.outside.registry c.pairing
    have hheld := h.registered.tryGet c.pairing
    rcases htry : t.outside.registry.tryGet c.pairing with ⟨_ | id, r⟩
    -- Nothing is there yet.  An error leaves no trace but in the counters.
    · rw [htry] at hheld
      dsimp only
      unfold build
      rcases hcompile : o.compile c with ⟨e | m, journal⟩
      · rw [hcompile] at hof
        refine ⟨⟨h.setRegistry hheld, .refl _, rfl, fun own hj => ?_⟩, hof⟩
        have := hj.build (mem_of_choose? hc)
        rw [hcompile] at this
        exact this
      · rw [hcompile] at hof
        have hm : (o.compile c).1 = .ok m := by rw [hcompile]
        have hadd := h.add hheld hfind hm
        refine ⟨⟨hadd, extends_push _ m, rfl, fun own hj => ?_⟩, m, Array.getElem?_push_size, hof⟩
        have := hj.build (mem_of_choose? hc)
        rw [hcompile] at this
        exact this
    -- What is there was compiled from the configuration of this very key.
    · rw [htry] at hfst hheld
      obtain ⟨c', m, hc', hm, hid⟩ := h.registered.of_find? hfst.symm
      rw [hfind] at hc'
      cases hc'
      exact ⟨⟨h.setRegistry hheld, .refl _, rfl, fun own hj => hj⟩, m, hid, hof.trans hm⟩

/-! ## §3. Links -/

theorem mem_of_lookup_link {links : List ((Nat × Nat) × Nat)} {key : Nat × Nat} {child : Nat}
    (h : links.lookup key = some child) : (key, child) ∈ links := by
  induction links with
  | nil => cases h
  | cons entry rest ih =>
    obtain ⟨key', child'⟩ := entry
    rw [List.lookup_cons] at h
    split at h
    · rename_i heq
      cases h
      rw [eq_of_beq heq]
      exact List.mem_cons_self
    · exact List.mem_cons_of_mem _ (ih h)

/-- A new link to an instance that serves the pairing nested there. -/
theorem Consistent.link (h : o.Consistent s) {i child : Nat} (hm : mapper? s id = some m)
    (hnests : m.spec.NestsAt i p) (hserves : o.Serves s child p) :
    o.Consistent { s with links := ((id, i), child) :: s.links } := by
  refine ⟨h.compiled, h.registered, ?_⟩
  intro id' i' child' hlink
  rcases List.mem_cons.mp hlink with heq | hold
  · cases heq
    refine ⟨m, hm, fun q hq => ?_⟩
    -- A member nests one pairing only.
    obtain ⟨c, _, hcompile⟩ := h.compiled id m hm
    rw [(resolved_of_compile hcompile).nestsAt_unique hq hnests]
    exact hserves
  · exact h.linked id' i' child' hold

theorem run_follow_of_linked {t : Trail State} {member : Nat × Nat} {child : Nat}
    (h : t.outside.links.lookup member = some child) :
    (o.follow member p).run t = (.ok child, t) := by
  unfold follow
  rw [Run.run_bind_ok (Run.run_get t)]
  simp only [h]
  rfl

theorem run_follow_of_dropped {t : Trail State} {member : Nat × Nat}
    (h : t.outside.links.lookup member = none) (halive : t.outside.alive = false) :
    (o.follow member p).run t = (.error .ownerDropped, t) := by
  unfold follow
  rw [Run.run_bind_ok (Run.run_get t)]
  simp only [h]
  rw [Run.run_bind_ok (Run.run_get t)]
  simp only [halive]
  rfl

theorem run_requestNested (t : Trail State) :
    (o.requestNested p).run t = ((o.request p t).1.mapError nestedError, (o.request p t).2) := rfl

/-- A link that is not there yet is made by a request. -/
theorem run_follow_of_unlinked {t : Trail State} {member : Nat × Nat}
    (h : t.outside.links.lookup member = none) (halive : t.outside.alive = true) :
    (o.follow member p).run t =
      match o.request p t with
      | (.ok child, t') =>
          (.ok child, { t' with outside.links := (member, child) :: t'.outside.links })
      | (.error e, t') => (.error (nestedError e), t') := by
  unfold follow
  rw [Run.run_bind_ok (Run.run_get t)]
  simp only [h]
  rw [Run.run_bind_ok (Run.run_get t)]
  simp only [halive]
  rcases hr : o.request p t with ⟨e | child, t'⟩
  · have hrun : (o.requestNested p).run t = (.error (nestedError e), t') := by
      rw [run_requestNested, hr]
      rfl
    show (requestNested o p >>= _ : Run (Trail State) Nat).run t = _
    rw [Run.run_bind_error hrun]
  · have hrun : (o.requestNested p).run t = (.ok child, t') := by
      rw [run_requestNested, hr]
      rfl
    show (requestNested o p >>= _ : Run (Trail State) Nat).run t = _
    rw [Run.run_bind_ok hrun]
    rfl

/-- **Following a link**, or making it, leads to an instance that serves the
pairing; else the pairing comes to an error, or the owner is gone. -/
theorem follow_spec {t : Trail State} (h : o.Consistent t.outside) {i : Nat}
    (hm : mapper? t.outside id = some m) (hnests : m.spec.NestsAt i p) :
    o.Advances t ((o.follow (id, i) p).run t).2 ∧
      match ((o.follow (id, i) p).run t).1 with
      | .ok child => o.Serves ((o.follow (id, i) p).run t).2.outside child p
      | .error e => (t.outside.alive = false ∧ e = .ownerDropped) ∨
          ∃ b, o.mapperOf p = .error b ∧ e = nestedError b := by
  cases hlink : t.outside.links.lookup (id, i) with
  | some child =>
    -- The link was made for a pairing nested here, and there is only one.
    rw [run_follow_of_linked hlink]
    obtain ⟨m', hm', hserves⟩ := h.linked id i child (mem_of_lookup_link hlink)
    rw [hm] at hm'
    cases hm'
    exact ⟨.refl h, hserves p hnests⟩
  | none =>
    cases halive : t.outside.alive with
    | false =>
      rw [run_follow_of_dropped hlink halive]
      exact ⟨.refl h, .inl ⟨rfl, rfl⟩⟩
    | true =>
      rw [run_follow_of_unlinked hlink halive]
      obtain ⟨hadv, hres⟩ := request_spec h p
      rcases hr : o.request p t with ⟨e | child, t'⟩
      · rw [hr] at hadv hres
        exact ⟨hadv, .inr ⟨e, hres, rfl⟩⟩
      · rw [hr] at hadv hres
        have hkeep := hadv.consistent.link (hadv.keeps id m hm) hnests hres
        exact ⟨⟨hkeep, hadv.keeps, hadv.alive, hadv.journal⟩, hres⟩

end Owner

end RecordMap
