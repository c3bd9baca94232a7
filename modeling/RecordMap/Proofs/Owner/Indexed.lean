import RecordMap.Owner.Typed
import RecordMap.Proofs.Owner.Consistent
import RecordMap.Proofs.Registry.Refinement

/-!
# One instance for each configuration

An owner is asked for mappers in five ways: by type or without, on behalf of a running
mapper or not, and without building (`Owner.Request`).  What one request can come to
is said once (`Owner.Served`): there is no configuration, the instance is there, or it
is built, or the build fails.

The registry keeps an *index* of the instances: each one is under the pairing of its
own configuration, and there is no other entry (`Owner.Indexed`).  Every request keeps
it so, and by it the cast of a typed request never fails.
-/

namespace RecordMap

namespace Owner

-- Powers are the built-in ones, whichever library is in scope.
attribute [local instance (high)] instPowNat

/-! ## §1. Requests -/

/-- One request for a mapper. -/
inductive Request where
  /-- The mapper between two records. -/
  | mapper (source destination : String) (profile : Option String)
  /-- The mapper of a pairing, whatever its types. -/
  | erased (p : Pairing)
  /-- The mapper of a pairing on behalf of a running one. -/
  | nested (p : Pairing)
  /-- The mapper between two records on behalf of a running one. -/
  | callable (source destination : String) (profile : Option String)
  /-- The mapper between two records if it has been built. -/
  | tryMapper (source destination : String) (profile : Option String)

/-- What a request gives. -/
inductive Reply where
  | found (id : Nat)
  | absent
  | invalid (e : BuildError)
  | fault (e : MapError)

namespace Request

/-- The pairing asked for. -/
def pairing : Request → Pairing
  | mapper a b profile | callable a b profile | tryMapper a b profile =>
      recordPairing a b profile
  | erased p | nested p => p

/-- The request builds what is not there yet. -/
def mayBuild : Request → Bool
  | tryMapper .. => false
  | _ => true

/-- What the request gives if no mapper can be had. -/
def failure (r : Request) (e : BuildError) : Reply :=
  match r with
  | mapper .. | erased _ => .invalid e
  | nested _ | callable .. => .fault (nestedError e)
  | tryMapper .. => .absent

/-- What the request gives for the result of a build or a lookup. -/
def reply (r : Request) : Except BuildError Nat → Reply
  | .ok id => .found id
  | .error e => r.failure e

end Request

/-- The reply to a request, with the state it leaves. -/
def serve (o : Owner) (s : State) : Request → Reply × State
  | .mapper a b profile =>
      match o.mapperFor a b profile { outside := s } with
      | (.ok id, t) => (.found id, t.outside)
      | (.error (.build e), t) => (.invalid e, t.outside)
      | (.error (.map e), t) => (.fault e, t.outside)
  | .erased p =>
      match o.request p { outside := s } with
      | (.ok id, t) => (.found id, t.outside)
      | (.error e, t) => (.invalid e, t.outside)
  | .nested p =>
      match (o.requestNested p).run { outside := s } with
      | (.ok id, t) => (.found id, t.outside)
      | (.error e, t) => (.fault e, t.outside)
  | .callable a b profile =>
      match (o.callable a b profile).run { outside := s } with
      | (.ok id, t) => (.found id, t.outside)
      | (.error e, t) => (.fault e, t.outside)
  | .tryMapper a b profile =>
      match o.tryMapper a b profile s with
      | (some id, s) => (.found id, s)
      | (none, s) => (.absent, s)

/-! ## §2. What one request comes to -/

/-- **What a request comes to**, and the state it leaves. -/
inductive Served (o : Owner) (s : State) (r : Request) : Reply → State → Prop where
  /-- Nothing is looked up if there is no configuration. -/
  | unknown (none : o.choose? r.pairing = none) :
      Served o s r (r.failure (.notRegistered (r.pairing.name o.schema))) s
  | hit {c : Config} {id : Nat} (chosen : o.choose? r.pairing = some c)
      (there : s.registry.find? c.pairing = some id) :
      Served o s r (.found id) { s with registry := s.registry.count 1 0 }
  | missed {c : Config} (chosen : o.choose? r.pairing = some c)
      (lacking : s.registry.find? c.pairing = none) (only : r.mayBuild = false) :
      Served o s r .absent { s with registry := s.registry.count 0 1 }
  | built {c : Config} {m : Mapper} (chosen : o.choose? r.pairing = some c)
      (lacking : s.registry.find? c.pairing = none) (builds : r.mayBuild = true)
      (compiles : (o.compile c).1 = .ok m) :
      Served o s r (.found s.mappers.size) { s with
        registry := (s.registry.count 0 1).publish c.pairing s.mappers.size
        mappers := s.mappers.push m }
  | failed {c : Config} {e : BuildError} (chosen : o.choose? r.pairing = some c)
      (lacking : s.registry.find? c.pairing = none) (builds : r.mayBuild = true)
      (fails : (o.compile c).1 = .error e) :
      Served o s r (r.failure e) { s with
        registry := { s.registry.count 0 1 with failures := s.registry.failures + 1 } }

/-- **The index of the instances.** -/
structure Indexed (o : Owner) (s : State) : Prop where
  linked : s.registry.Linked
  index : ∀ key id, s.registry.find? key = some id ↔
    ∃ m, mapper? s id = some m ∧ m.spec.pairing = key
  compiled : ∀ id m, mapper? s id = some m →
    ∃ c, o.configs.find? (·.pairing == c.pairing) = some c ∧ (o.compile c).1 = .ok m
  builds : s.registry.builds = s.mappers.size

variable {o : Owner} {s s' : State} {r : Request} {reply : Reply} {p : Pairing} {c : Config}
  {m : Mapper} {id : Nat}

/-- A compiled mapper is for the pairing of its configuration. -/
theorem pairing_of_compile (h : (o.compile c).1 = .ok m) : m.spec.pairing = c.pairing := by
  have hspec := resolved_of_compile h
  unfold Specification.pairing Config.pairing
  rw [hspec.source, hspec.destination, hspec.profile]

/-! ### Untyped requests -/

theorem request_of_unknown (h : o.choose? p = none) (t : Trail State) :
    o.request p t = (.error (.notRegistered (p.name o.schema)), t) := by
  unfold request
  rw [h]

theorem request_of_hit {t : Trail State} (hc : o.choose? p = some c)
    (h : t.outside.registry.find? c.pairing = some id) :
    o.request p t = (.ok id, { t with
      outside := { t.outside with registry := t.outside.registry.count 1 0 } }) := by
  unfold request
  rw [hc]
  dsimp only
  unfold Registry.getOrCreate
  rw [Registry.tryGet_eq, h]
  rfl

theorem request_of_built {t : Trail State} (hc : o.choose? p = some c)
    (h : t.outside.registry.find? c.pairing = none) (hm : (o.compile c).1 = .ok m) :
    o.request p t = (.ok t.outside.mappers.size, {
      journal := t.journal ++ (o.compile c).2
      outside := { t.outside with
        registry := (t.outside.registry.count 0 1).publish c.pairing t.outside.mappers.size
        mappers := t.outside.mappers.push m } }) := by
  rcases hcompile : o.compile c with ⟨result, journal⟩
  rw [hcompile] at hm
  cases hm
  unfold request
  rw [hc]
  dsimp only
  unfold Registry.getOrCreate build
  rw [Registry.tryGet_eq, h, hcompile]
  rfl

theorem request_of_failed {t : Trail State} {e : BuildError} (hc : o.choose? p = some c)
    (h : t.outside.registry.find? c.pairing = none) (he : (o.compile c).1 = .error e) :
    o.request p t = (.error e, {
      journal := t.journal ++ (o.compile c).2
      outside := { t.outside with
        registry := { t.outside.registry.count 0 1 with
          failures := t.outside.registry.failures + 1 } } }) := by
  rcases hcompile : o.compile c with ⟨result, journal⟩
  rw [hcompile] at he
  cases he
  unfold request
  rw [hc]
  dsimp only
  unfold Registry.getOrCreate build
  rw [Registry.tryGet_eq, h, hcompile]
  rfl

/-! ### Typed requests -/

/-- An instance of the mapper of a configuration for two records is cast to them. -/
theorem downcast_of_pairing {a b : String} {profile : Option String}
    (hm : mapper? s id = some m) (hpairing : m.spec.pairing = c.pairing)
    (hc : o.choose? (recordPairing a b profile) = some c) : o.downcast s a b id = .ok id := by
  obtain ⟨hsource, hdestination⟩ := types_of_choose? hc
  rw [← hpairing] at hsource hdestination
  have ha : m.spec.source = a := Ty.record.inj hsource
  have hb : m.spec.destination = b := Ty.record.inj hdestination
  unfold downcast
  rw [hm]
  simp [ha, hb]

/-- **The cast never fails**: a request for two records gives an instance of theirs. -/
theorem downcast_request {a b : String} {profile : Option String} (h : o.Indexed s)
    (hok : (o.request (recordPairing a b profile) { outside := s }).1 = .ok id) :
    o.downcast (o.request (recordPairing a b profile) { outside := s }).2.outside a b id =
      .ok id := by
  cases hc : o.choose? (recordPairing a b profile) with
  | none =>
    rw [request_of_unknown hc] at hok
    cases hok
  | some c =>
    cases hfind : s.registry.find? c.pairing with
    | some id' =>
      rw [request_of_hit (t := { outside := s }) hc hfind] at hok ⊢
      cases hok
      obtain ⟨m, hm, hpairing⟩ := (h.index _ _).mp hfind
      exact downcast_of_pairing hm hpairing hc
    | none =>
      cases hcompile : (o.compile c).1 with
      | error e =>
        rw [request_of_failed (t := { outside := s }) hc hfind hcompile] at hok
        cases hok
      | ok m =>
        rw [request_of_built (t := { outside := s }) hc hfind hcompile] at hok ⊢
        cases hok
        exact downcast_of_pairing Array.getElem?_push_size (pairing_of_compile hcompile) hc

/-- **Requests that may build** all come to what the untyped one comes to. -/
theorem serve_of_mayBuild (h : o.Indexed s) (hr : r.mayBuild = true) :
    o.serve s r = (r.reply (o.request r.pairing { outside := s }).1,
      (o.request r.pairing { outside := s }).2.outside) := by
  cases r with
  | mapper a b profile =>
    unfold serve mapperFor
    dsimp only [Request.pairing]
    rcases hrequest : o.request (recordPairing a b profile) { outside := s } with ⟨e | id, t⟩
    · rfl
    · have hcast := downcast_request h (by rw [hrequest])
      rw [hrequest] at hcast
      dsimp only
      rw [hcast]
      rfl
  | erased p =>
    unfold serve
    dsimp only [Request.pairing]
    rcases o.request p { outside := s } with ⟨_ | _, _⟩ <;> rfl
  | nested p =>
    unfold serve
    dsimp only [Request.pairing]
    rw [run_requestNested]
    rcases o.request p { outside := s } with ⟨_ | _, _⟩ <;> rfl
  | callable a b profile =>
    unfold serve callable
    dsimp only [Request.pairing]
    rw [Run.run_bind, run_requestNested]
    rcases hrequest : o.request (recordPairing a b profile) { outside := s } with ⟨e | id, t⟩
    · rfl
    · have hcast := downcast_request h (by rw [hrequest])
      rw [hrequest] at hcast
      show (match (o.downcast t.outside a b id, t) with
        | (.ok id, t) => (Reply.found id, t.outside)
        | (.error e, t) => (Reply.fault e, t.outside)) = _
      rw [hcast]
      rfl
  | tryMapper a b profile => cases hr

/-- A request that may not build finds what is there. -/
theorem tryMapper_eq (h : o.Indexed s) {a b : String} {profile : Option String}
    (hc : o.choose? (recordPairing a b profile) = some c) :
    o.tryMapper a b profile s = (s.registry.find? c.pairing, { s with
      registry := s.registry.count (if (s.registry.find? c.pairing).isSome then 1 else 0)
        (if (s.registry.find? c.pairing).isSome then 0 else 1) }) := by
  unfold tryMapper tryRequest
  rw [hc]
  dsimp only
  rw [Registry.tryGet_eq]
  cases hfind : s.registry.find? c.pairing with
  | none => rfl
  | some id =>
    obtain ⟨m, hm, hpairing⟩ := (h.index _ _).mp hfind
    have hcast : o.downcast { s with registry := s.registry.count 1 0 } a b id = .ok id :=
      downcast_of_pairing hm hpairing hc
    simp only [Option.isSome_some, if_true, Option.bind_some, hcast]
    rfl

/-- **A request that may build**, on any trail, comes to what it may come to. -/
theorem served_request (t : Trail State) (hr : r.mayBuild = true) :
    o.Served t.outside r (r.reply (o.request r.pairing t).1) (o.request r.pairing t).2.outside := by
  cases hc : o.choose? r.pairing with
  | none =>
    rw [request_of_unknown hc]
    exact .unknown hc
  | some c =>
    cases hfind : t.outside.registry.find? c.pairing with
    | some id =>
      rw [request_of_hit hc hfind]
      exact .hit hc hfind
    | none =>
      cases hcompile : (o.compile c).1 with
      | ok m =>
        rw [request_of_built hc hfind hcompile]
        exact .built hc hfind hr hcompile
      | error e =>
        rw [request_of_failed hc hfind hcompile]
        exact .failed hc hfind hr hcompile

theorem served_erased (t : Trail State) (p : Pairing) :
    o.Served t.outside (.erased p) ((Request.erased p).reply (o.request p t).1)
      (o.request p t).2.outside :=
  served_request t rfl

/-- **One request** comes to what it may come to. -/
theorem served_serve (h : o.Indexed s) (r : Request) :
    o.Served s r (o.serve s r).1 (o.serve s r).2 := by
  cases hr : r.mayBuild with
  | true =>
    rw [serve_of_mayBuild h hr]
    exact served_request { outside := s } hr
  | false =>
    obtain ⟨a, b, profile, rfl⟩ : ∃ a b profile, r = .tryMapper a b profile := by
      cases r <;> first | exact ⟨_, _, _, rfl⟩ | cases hr
    cases hc : o.choose? (recordPairing a b profile) with
    | none =>
      have hserve : o.tryMapper a b profile s = (none, s) := by
        unfold tryMapper tryRequest
        rw [hc]
        rfl
      unfold serve
      dsimp only
      rw [hserve]
      exact .unknown hc
    | some c =>
      have hserve := tryMapper_eq h hc
      unfold serve
      dsimp only
      rw [hserve]
      cases hfind : s.registry.find? c.pairing with
      | some id => exact .hit hc hfind
      | none => exact .missed hc hfind rfl

/-! ## §3. The index is kept -/

theorem indexed_start (hoptions : o.options.initialSize ≤ 2 ^ (63 : Nat)) : o.Indexed o.start := by
  have hsound := Registry.History.sound_start (α := Nat) o.hash hoptions
  refine ⟨hsound.linked, ?_, ?_, rfl⟩
  · intro key id
    have hnone : o.start.registry.find? key = none := congrFun hsound.found key
    rw [hnone]
    constructor
    · intro h
      cases h
    · rintro ⟨m, hm, _⟩
      cases hm
  · intro id m hm
    cases hm

/-- The instances once one more is built. -/
theorem mapper?_push_iff {m' : Mapper} :
    (s.mappers.push m)[id]? = some m' ↔
      mapper? s id = some m' ∨ id = s.mappers.size ∧ m = m' := by
  rw [Array.getElem?_push]
  split
  · next hid =>
    subst hid
    have hnone : mapper? s s.mappers.size = none := Array.getElem?_size
    simp [hnone]
  · next hid =>
    show mapper? s id = some m' ↔ _
    simp [hid]

/-- An instance under a pairing that had none keeps the index. -/
theorem Indexed.add (h : o.Indexed s) (hc : o.configs.find? (·.pairing == c.pairing) = some c)
    (hm : (o.compile c).1 = .ok m) (hnew : s.registry.find? c.pairing = none) :
    o.Indexed { s with
      registry := (s.registry.count 0 1).publish c.pairing s.mappers.size
      mappers := s.mappers.push m } := by
  have hcounted := h.linked.count 0 1
  refine ⟨hcounted.publish hnew _, ?_, ?_, ?_⟩
  · intro key id
    show ((s.registry.count 0 1).publish c.pairing s.mappers.size).find? key = some id ↔
      ∃ m', (s.mappers.push m)[id]? = some m' ∧ m'.spec.pairing = key
    rw [hcounted.find?_publish hnew]
    show (if key = c.pairing then some s.mappers.size else s.registry.find? key) = some id ↔ _
    simp only [mapper?_push_iff, or_and_right, exists_or, ← h.index]
    by_cases hkey : key = c.pairing
    -- The key of the new instance had none.
    · simp [hkey, hnew, pairing_of_compile hm, eq_comm]
    · simp [hkey, pairing_of_compile hm, Ne.symm hkey]
  · intro id m' hm'
    rcases mapper?_push_iff.mp hm' with hold | ⟨-, rfl⟩
    · exact h.compiled id m' hold
    · exact ⟨c, hc, hm⟩
  · show ((s.registry.count 0 1).publish c.pairing s.mappers.size).builds =
      (s.mappers.push m).size
    rw [Registry.publish_eq, Array.size_push]
    exact congrArg (· + 1) h.builds

/-- **One request keeps the index.** -/
theorem Served.indexed (hs : o.Served s r reply s') (h : o.Indexed s) : o.Indexed s' := by
  cases hs with
  | unknown _ => exact h
  | hit _ _ => exact ⟨h.linked.count 1 0, h.index, h.compiled, h.builds⟩
  | missed _ _ _ => exact ⟨h.linked.count 0 1, h.index, h.compiled, h.builds⟩
  | built chosen lacking _ compiles => exact h.add (find?_of_choose? chosen) compiles lacking
  | failed _ _ _ _ =>
    exact ⟨⟨h.linked.ranged, h.linked.placed, h.linked.distinct, h.linked.size⟩, h.index,
      h.compiled, h.builds⟩

end Owner

end RecordMap
