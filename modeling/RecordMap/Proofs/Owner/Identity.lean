import Mathlib.Data.List.Induction
import RecordMap.Proofs.Owner.Indexed
import RecordMap.Proofs.Plan.Absence

/-!
# Identity of instances

An owner is made by registering configurations one after another and then serves
requests one after another.  Which configuration a request chooses is settled by the
registrations alone (`Owner.choose?_registered`).  Which instance it gives is settled by
the requests before it: a configuration is found in the registry just when one of them
chose it and was given an instance (`Owner.find?_reached_iff`).

So there is one instance for each configuration that was built, whatever the profiles
it was asked for under.
-/

namespace RecordMap

namespace Owner

-- Powers are the built-in ones, whichever library is in scope.
attribute [local instance (high)] instPowNat

variable {o : Owner} {s s' : State} {r : Request} {a : Reply} {p : Pairing} {c : Config}
  {m : Mapper} {id : Nat}

/-! ## §1. Registrations -/

/-- The owner with the given configurations, registered in turn. -/
def registered (o : Owner) (cs : List Config) : Owner := cs.foldl register { o with configs := [] }

/-- The last configuration registered for just this pairing. -/
def lastFor (cs : List Config) (p : Pairing) : Option Config :=
  (cs.filter (·.pairing == p)).getLast?

/-- A registration counts for its own pairing and leaves the others alone. -/
theorem find?_register (o : Owner) (c : Config) (p : Pairing) :
    (o.register c).configs.find? (·.pairing == p) =
      if c.pairing = p then some c else o.configs.find? (·.pairing == p) := by
  unfold register
  rw [List.find?_append]
  by_cases hp : c.pairing = p
  · have hnone : (o.configs.filter (·.pairing != c.pairing)).find? (·.pairing == p) = none := by
      rw [List.find?_eq_none]
      intro a ha
      have hne : a.pairing ≠ c.pairing := by simpa using (List.mem_filter.mp ha).2
      simpa [← hp] using hne
    rw [hnone]
    simp [hp]
  · have hsame : (o.configs.filter (·.pairing != c.pairing)).find? (·.pairing == p) =
        o.configs.find? (·.pairing == p) := by
      rw [List.find?_filter]
      congr 1
      funext a
      by_cases ha : a.pairing = p
      · simp [ha, Ne.symm hp]
      · simp [ha]
    rw [hsame]
    simp [hp]

/-- **The last registration of a pairing counts.** -/
theorem find?_registered (o : Owner) (cs : List Config) (p : Pairing) :
    (o.registered cs).configs.find? (·.pairing == p) = lastFor cs p := by
  induction cs using List.reverseRecOn with
  | nil => rfl
  | append_singleton cs c ih =>
    have hlast : o.registered (cs ++ [c]) = (o.registered cs).register c := by
      unfold registered
      rw [List.foldl_append]
      rfl
    rw [hlast, find?_register, ih]
    unfold lastFor
    rw [List.filter_append]
    by_cases hp : c.pairing = p
    · simp [hp]
    · simp [hp]

/-- **The choice**: the last configuration for the very pairing, else, if a profile was
asked for, the last one without a profile. -/
theorem choose?_registered (o : Owner) (cs : List Config) (p : Pairing) :
    (o.registered cs).choose? p =
      (lastFor cs p).or (if p.profile.isSome then lastFor cs p.plain else none) := by
  unfold choose?
  rw [find?_registered, find?_registered]
  cases hprofile : p.profile with
  | some profile => simp
  | none =>
    have hplain : p.plain = p := by
      unfold Pairing.plain
      rw [← hprofile]
    simp [hplain]

theorem options_registered (o : Owner) (cs : List Config) :
    (o.registered cs).options = o.options := by
  unfold registered
  induction cs using List.reverseRecOn with
  | nil => rfl
  | append_singleton cs c ih =>
    rw [List.foldl_append]
    exact ih

/-! ## §2. Requests one after another -/

/-- The state that requests lead to. -/
def reached (o : Owner) (rs : List Request) : State :=
  rs.foldl (fun s r => (o.serve s r).2) o.start

/-- The reply to a request after others. -/
def reply (o : Owner) (rs : List Request) (r : Request) : Reply := (o.serve (o.reached rs) r).1

theorem reached_append (rs rs' : List Request) :
    o.reached (rs ++ rs') = rs'.foldl (fun s r => (o.serve s r).2) (o.reached rs) :=
  List.foldl_append

/-- **Any requests keep the index.** -/
theorem indexed_reached (hoptions : o.options.initialSize ≤ 2 ^ (63 : Nat)) (rs : List Request) :
    o.Indexed (o.reached rs) := by
  induction rs using List.reverseRecOn with
  | nil => exact indexed_start hoptions
  | append_singleton rs r ih =>
    rw [reached_append]
    exact (served_serve ih r).indexed ih

/-- Every request comes to what it may come to. -/
theorem served_reached (hoptions : o.options.initialSize ≤ 2 ^ (63 : Nat)) (rs : List Request)
    (r : Request) : o.Served (o.reached rs) r (o.reply rs r) (o.reached (rs ++ [r])) := by
  rw [reached_append]
  exact served_serve (indexed_reached hoptions rs) r

/-! ## §3. What requests leave behind -/

/-- No failure is an instance. -/
theorem failure_ne_found (r : Request) (e : BuildError) : r.failure e ≠ .found id := by
  cases r <;> exact nofun

/-- No failure is one of a cast. -/
theorem failure_ne_typeMismatch (r : Request) (e : BuildError) (name : String) :
    r.failure e ≠ .fault (.typeMismatch name) := by
  cases r <;> cases e <;> exact nofun

/-- **A request adds to the registry just the instance it gives**, under the pairing of
the configuration it chooses. -/
theorem Served.find?_iff (hs : o.Served s r a s') (h : o.Indexed s) {key : Pairing} :
    s'.registry.find? key = some id ↔ s.registry.find? key = some id ∨
      a = .found id ∧ ∃ c, o.choose? r.pairing = some c ∧ c.pairing = key := by
  cases hs with
  | unknown _ | failed _ _ _ _ =>
    refine ⟨.inl, fun hnew => hnew.resolve_right ?_⟩
    rintro ⟨hid, _⟩
    exact failure_ne_found r _ hid
  | missed _ _ _ =>
    refine ⟨.inl, fun hnew => hnew.resolve_right ?_⟩
    rintro ⟨hid, _⟩
    cases hid
  | hit chosen there =>
    -- What is given was there already.
    refine ⟨.inl, ?_⟩
    rintro (hold | ⟨hid, c, hc, rfl⟩)
    · exact hold
    · cases hid
      cases chosen.symm.trans hc
      exact there
  | @built c m chosen lacking _ _ =>
    show ((s.registry.count 0 1).publish c.pairing s.mappers.size).find? key = some id ↔ _
    rw [(h.linked.count 0 1).find?_publish lacking]
    show (if key = c.pairing then some s.mappers.size else s.registry.find? key) = some id ↔ _
    by_cases hkey : key = c.pairing
    · simp [hkey, chosen, lacking]
    · simp [hkey, chosen, Ne.symm hkey]

/-- Instances are there ever after. -/
theorem Served.extends (hs : o.Served s r a s') : s.Extends s' := by
  cases hs with
  | built _ _ _ _ => exact extends_push s _
  | unknown _ | hit _ _ | missed _ _ _ | failed _ _ _ _ => exact .refl s

theorem extends_reached (hoptions : o.options.initialSize ≤ 2 ^ (63 : Nat)) {rs rs' : List Request}
    (h : rs <+: rs') : (o.reached rs).Extends (o.reached rs') := by
  obtain ⟨since, rfl⟩ := h
  induction since using List.reverseRecOn with
  | nil =>
    rw [List.append_nil]
    exact .refl _
  | append_singleton since r ih =>
    rw [← List.append_assoc]
    exact ih.trans (served_reached hoptions (rs ++ since) r).extends

/-- **What the registry knows** is what earlier requests were given. -/
theorem find?_reached_iff (hoptions : o.options.initialSize ≤ 2 ^ (63 : Nat)) (rs : List Request)
    {key : Pairing} :
    (o.reached rs).registry.find? key = some id ↔
      ∃ before r, before ++ [r] <+: rs ∧ o.reply before r = .found id ∧
        ∃ c, o.choose? r.pairing = some c ∧ c.pairing = key := by
  induction rs using List.reverseRecOn with
  | nil =>
    have hnone : (o.reached []).registry.find? key = none :=
      congrFun (Registry.History.sound_start (α := Nat) o.hash hoptions).found key
    simp [hnone]
  | append_singleton rs r ih =>
    rw [(served_reached hoptions rs r).find?_iff (indexed_reached hoptions rs), ih]
    constructor
    · rintro (⟨before, r', hbefore, hreply⟩ | hreply)
      · exact ⟨before, r', hbefore.trans (List.prefix_append rs [r]), hreply⟩
      · exact ⟨rs, r, List.prefix_rfl, hreply⟩
    · rintro ⟨before, r', hbefore, hreply⟩
      rcases List.prefix_concat_iff.mp hbefore with heq | hbefore
      · obtain ⟨rfl, hlast⟩ := List.append_inj' heq rfl
        cases hlast
        exact .inr hreply
      · exact .inl ⟨before, r', hbefore, hreply⟩

/-! ### The instance given -/

/-- Chosen configurations of one pairing are the same. -/
theorem eq_of_pairing {q : Pairing} {c' : Config} (hc : o.choose? p = some c)
    (hc' : o.choose? q = some c') (h : c.pairing = c'.pairing) : c = c' := by
  have hfind := find?_of_choose? hc
  rw [h, find?_of_choose? hc'] at hfind
  exact (Option.some.inj hfind).symm

theorem Served.chosen_of_found (hs : o.Served s r a s') (ha : a = .found id) :
    ∃ c, o.choose? r.pairing = some c := by
  cases hs with
  | unknown _ => exact absurd ha (failure_ne_found r _)
  | hit chosen _ | missed chosen _ _ | built chosen _ _ _ | failed chosen _ _ _ =>
    exact ⟨_, chosen⟩

/-- A registered instance is compiled from the configuration of its key. -/
theorem Indexed.compiled_of_find? (h : o.Indexed s)
    (hc : o.configs.find? (·.pairing == c.pairing) = some c)
    (hfind : s.registry.find? c.pairing = some id) :
    ∃ m, mapper? s id = some m ∧ (o.compile c).1 = .ok m := by
  obtain ⟨m, hm, hpairing⟩ := (h.index _ _).mp hfind
  obtain ⟨c', hc', hcompile⟩ := h.compiled id m hm
  rw [← pairing_of_compile hcompile, hpairing, hc] at hc'
  cases hc'
  exact ⟨m, hm, hcompile⟩

/-- **The instance given** is compiled from the configuration chosen, and registered
under its pairing. -/
theorem found_reached (hoptions : o.options.initialSize ≤ 2 ^ (63 : Nat)) {rs : List Request}
    (hid : o.reply rs r = .found id) :
    ∃ c m, o.choose? r.pairing = some c ∧ (o.compile c).1 = .ok m ∧
      mapper? (o.reached (rs ++ [r])) id = some m := by
  obtain ⟨c, hc⟩ := (served_reached hoptions rs r).chosen_of_found hid
  have hfind : (o.reached (rs ++ [r])).registry.find? c.pairing = some id :=
    (find?_reached_iff hoptions _).mpr ⟨rs, r, List.prefix_rfl, hid, c, hc, rfl⟩
  obtain ⟨m, hm, hcompile⟩ :=
    (indexed_reached hoptions _).compiled_of_find? (find?_of_choose? hc) hfind
  exact ⟨c, m, hc, hcompile, hm⟩

/-- A request that may build gives what its configuration compiles to. -/
theorem Served.reply_of_mayBuild (hs : o.Served s r a s') (h : o.Indexed s)
    (hr : r.mayBuild = true) (hc : o.choose? r.pairing = some c) :
    (∀ m, (o.compile c).1 = .ok m → ∃ id, a = .found id) ∧
      ∀ e, (o.compile c).1 = .error e → a = r.failure e := by
  cases hs with
  | unknown none =>
    rw [none] at hc
    cases hc
  | hit chosen there =>
    cases chosen.symm.trans hc
    obtain ⟨m, _, hcompile⟩ := h.compiled_of_find? (find?_of_choose? hc) there
    refine ⟨fun _ _ => ⟨_, rfl⟩, fun e he => ?_⟩
    rw [hcompile] at he
    cases he
  | missed _ _ only =>
    rw [hr] at only
    cases only
  | built chosen _ _ compiles =>
    cases chosen.symm.trans hc
    refine ⟨fun _ _ => ⟨_, rfl⟩, fun e he => ?_⟩
    rw [compiles] at he
    cases he
  | failed chosen _ _ fails =>
    cases chosen.symm.trans hc
    refine ⟨fun m hm => ?_, fun e he => ?_⟩
    · rw [fails] at hm
      cases hm
    · cases fails.symm.trans he
      rfl

/-- **Two requests give one instance** just when they choose one configuration. -/
theorem found_eq_iff (hoptions : o.options.initialSize ≤ 2 ^ (63 : Nat)) {before rs : List Request}
    {r' : Request} {id' : Nat} (hbefore : before ++ [r] <+: rs)
    (hid : o.reply before r = .found id) (hid' : o.reply rs r' = .found id') :
    id = id' ↔ o.choose? r.pairing = o.choose? r'.pairing := by
  obtain ⟨c, m, hc, hcompile, hm⟩ := found_reached hoptions hid
  obtain ⟨c', m', hc', hcompile', hm'⟩ := found_reached hoptions hid'
  have hlater : before ++ [r] <+: rs ++ [r'] := hbefore.trans (List.prefix_append rs [r'])
  rw [hc, hc', Option.some.injEq]
  constructor
  · -- An instance is for one pairing, and a pairing has one configuration.
    rintro rfl
    have hkept := extends_reached hoptions hlater id m hm
    cases hkept.symm.trans hm'
    have hpairing : c.pairing = c'.pairing :=
      (pairing_of_compile hcompile).symm.trans (pairing_of_compile hcompile')
    exact eq_of_pairing hc hc' hpairing
  · rintro rfl
    have hfind := (find?_reached_iff hoptions (rs ++ [r'])).mpr
      ⟨before, r, hlater, hid, c, hc, rfl⟩
    have hfind' := (find?_reached_iff hoptions (rs ++ [r'])).mpr
      ⟨rs, r', List.prefix_rfl, hid', c, hc', rfl⟩
    exact Option.some.inj (hfind.symm.trans hfind')

/-! ### Lookups and builds -/

/-- The lookups made in a registry. -/
def State.lookups (s : State) : Nat := s.registry.hits + s.registry.misses

/-- The builds run, whether they failed or not. -/
def State.attempts (s : State) : Nat := s.registry.builds + s.registry.failures

/-- A request that chooses a configuration looks it up once, and runs at most one build. -/
theorem Served.lookups (hs : o.Served s r a s') (hc : o.choose? r.pairing = some c) :
    s'.lookups = s.lookups + 1 ∧ s'.attempts ≤ s.attempts + 1 := by
  unfold State.lookups State.attempts
  cases hs with
  | unknown none =>
    rw [none] at hc
    cases hc
  | hit _ _ | missed _ _ _ | failed _ _ _ _ =>
    simp only [Registry.count]
    omega
  | built _ _ _ _ =>
    simp only [Registry.publish_eq, Registry.count]
    omega

/-- An instance that is built is given. -/
theorem Served.found_of_builds (hs : o.Served s r a s')
    (h : s'.registry.builds ≠ s.registry.builds) : ∃ id, a = .found id := by
  cases hs with
  | built _ _ _ _ => exact ⟨_, rfl⟩
  | unknown _ | hit _ _ | missed _ _ _ | failed _ _ _ _ => exact absurd rfl h

/-- **Nothing is built** if the request may not, or if the instance is there. -/
theorem Served.unbuilt (hs : o.Served s r a s')
    (h : r.mayBuild = false ∨
      ∃ c id, o.choose? r.pairing = some c ∧ s.registry.find? c.pairing = some id) :
    s'.mappers = s.mappers ∧ s'.attempts = s.attempts := by
  cases hs with
  | unknown _ | hit _ _ | missed _ _ _ => exact ⟨rfl, rfl⟩
  | built chosen lacking builds _ | failed chosen lacking builds _ =>
    rcases h with h | ⟨c, id, hc, hfind⟩
    · rw [builds] at h
      cases h
    · cases chosen.symm.trans hc
      rw [lacking] at hfind
      cases hfind

/-- Without a configuration a request fails and leaves everything as it was. -/
theorem Served.of_unknown (hs : o.Served s r a s') (h : o.choose? r.pairing = none) :
    a = r.failure (.notRegistered (r.pairing.name o.schema)) ∧ s' = s := by
  cases hs with
  | unknown _ => exact ⟨rfl, rfl⟩
  | hit chosen _ | missed chosen _ _ | built chosen _ _ _ | failed chosen _ _ _ =>
    rw [chosen] at h
    cases h

/-- A request that may not build finds what is registered. -/
theorem Served.found_iff_of_mayNotBuild (hs : o.Served s r a s') (hr : r.mayBuild = false)
    (hc : o.choose? r.pairing = some c) :
    a = .found id ↔ s.registry.find? c.pairing = some id := by
  cases hs with
  | unknown none =>
    rw [none] at hc
    cases hc
  | hit chosen there =>
    cases chosen.symm.trans hc
    simp [there]
  | missed chosen lacking _ =>
    cases chosen.symm.trans hc
    simp [lacking]
  | built _ _ builds _ | failed _ _ builds _ =>
    rw [hr] at builds
    cases builds

/-- **A request that may not build** gives an instance just when an earlier request that
chose the same configuration was given it. -/
theorem found_iff_earlier (hoptions : o.options.initialSize ≤ 2 ^ (63 : Nat)) (rs : List Request)
    (hr : r.mayBuild = false) :
    o.reply rs r = .found id ↔
      ∃ before r', before ++ [r'] <+: rs ∧ o.reply before r' = .found id ∧
        o.choose? r'.pairing = o.choose? r.pairing := by
  have hs := served_reached hoptions rs r
  constructor
  · intro hid
    obtain ⟨c, hc⟩ := hs.chosen_of_found hid
    obtain ⟨before, r', hbefore, hid', c', hc', hpairing⟩ :=
      (find?_reached_iff hoptions rs).mp ((hs.found_iff_of_mayNotBuild hr hc).mp hid)
    refine ⟨before, r', hbefore, hid', ?_⟩
    rw [hc, hc', eq_of_pairing hc' hc hpairing]
  · rintro ⟨before, r', hbefore, hid, hsame⟩
    obtain ⟨c, hc⟩ := (served_reached hoptions before r').chosen_of_found hid
    rw [hs.found_iff_of_mayNotBuild hr (hsame.symm.trans hc)]
    exact (find?_reached_iff hoptions rs).mpr ⟨before, r', hbefore, hid, c, hc, rfl⟩

/-! ## §4. One instance for each configuration -/

/-- A typed request gives what the untyped one gives. -/
theorem serve_typed (h : o.Indexed s) (x y : String) (profile : Option String) :
    (o.serve s (.mapper x y profile)).1 = (o.serve s (.erased (recordPairing x y profile))).1 ∧
      (o.serve s (.callable x y profile)).1 =
        (o.serve s (.nested (recordPairing x y profile))).1 := by
  have hserve : ∀ r : Request, r.mayBuild = true →
      (o.serve s r).1 = r.reply (o.request r.pairing { outside := s }).1 := by
    intro r hr
    rw [serve_of_mayBuild h hr]
  rw [hserve _ rfl, hserve _ rfl, hserve _ rfl, hserve _ rfl]
  dsimp only [Request.pairing]
  rcases (o.request (recordPairing x y profile) { outside := s }).1 with _ | _ <;>
    exact ⟨rfl, rfl⟩

/-- No request fails in a cast. -/
theorem Served.ne_typeMismatch (hs : o.Served s r a s') (name : String) :
    a ≠ .fault (.typeMismatch name) := by
  cases hs with
  | unknown _ | failed _ _ _ _ => exact failure_ne_typeMismatch r _ name
  | hit _ _ | missed _ _ _ | built _ _ _ _ => exact nofun

/-- **What holds of any request after any others.** -/
structure Identified (o : Owner) (rs : List Request) : Prop where
  /-- Without a configuration a request fails and leaves everything as it was. -/
  unknown : ∀ r, o.choose? r.pairing = none →
    o.reply rs r = r.failure (.notRegistered (r.pairing.name o.schema)) ∧
      o.reached (rs ++ [r]) = o.reached rs
  /-- A request that may build gives an instance if its configuration compiles. -/
  answered : ∀ r c, o.choose? r.pairing = some c → r.mayBuild = true →
    (∀ m, (o.compile c).1 = .ok m → ∃ id, o.reply rs r = .found id) ∧
      ∀ e, (o.compile c).1 = .error e → o.reply rs r = r.failure e
  same_iff : ∀ before r r' id id', before ++ [r] <+: rs → o.reply before r = .found id →
    o.reply rs r' = .found id' → (id = id' ↔ o.choose? r.pairing = o.choose? r'.pairing)
  /-- The instance is compiled from the configuration chosen, and stays. -/
  given : ∀ r id, o.reply rs r = .found id → ∃ c m, o.choose? r.pairing = some c ∧
    (o.compile c).1 = .ok m ∧ m.spec.source = c.source ∧
    m.spec.destination = c.destination ∧ m.spec.profile = c.profile ∧
    ∀ since, mapper? (o.reached (rs ++ r :: since)) id = some m
  /-- A typed request gives what the untyped one gives. -/
  typed : ∀ x y profile,
    o.reply rs (.mapper x y profile) = o.reply rs (.erased (recordPairing x y profile)) ∧
    o.reply rs (.callable x y profile) = o.reply rs (.nested (recordPairing x y profile))
  cast : ∀ r name, o.reply rs r ≠ .fault (.typeMismatch name)
  /-- A request makes one lookup and at most one build, and gives what it builds. -/
  counted : ∀ r c, o.choose? r.pairing = some c →
    (o.reached (rs ++ [r])).lookups = (o.reached rs).lookups + 1 ∧
    (o.reached (rs ++ [r])).attempts ≤ (o.reached rs).attempts + 1 ∧
    ((o.reached (rs ++ [r])).registry.builds ≠ (o.reached rs).registry.builds →
      ∃ id, o.reply rs r = .found id)
  /-- Nothing is built for a configuration an instance of which was given. -/
  once : ∀ before r r' id, before ++ [r] <+: rs → o.reply before r = .found id →
    o.choose? r'.pairing = o.choose? r.pairing →
      (o.reached (rs ++ [r'])).mappers = (o.reached rs).mappers ∧
      (o.reached (rs ++ [r'])).attempts = (o.reached rs).attempts
  builds : (o.reached rs).registry.builds = (o.reached rs).mappers.size
  /-- No two instances are of one configuration. -/
  distinct : ∀ id id' m m', mapper? (o.reached rs) id = some m →
    mapper? (o.reached rs) id' = some m' → m.spec.pairing = m'.spec.pairing → id = id'
  /-- A request that may not build gives what an earlier one was given. -/
  tried : ∀ x y profile,
    let r := .tryMapper x y profile
    (o.reached (rs ++ [r])).mappers = (o.reached rs).mappers ∧
    (o.reached (rs ++ [r])).attempts = (o.reached rs).attempts ∧
    ∀ id, o.reply rs r = .found id ↔
      ∃ before r', before ++ [r'] <+: rs ∧ o.reply before r' = .found id ∧
        o.choose? r'.pairing = o.choose? r.pairing

theorem identified (hoptions : o.options.initialSize ≤ 2 ^ (63 : Nat)) (rs : List Request) :
    o.Identified rs := by
  have hindexed := indexed_reached hoptions rs
  have hserved := served_reached hoptions rs
  constructor
  case unknown =>
    intro r hnone
    exact (hserved r).of_unknown hnone
  case answered =>
    intro r c hc hr
    exact (hserved r).reply_of_mayBuild hindexed hr hc
  case same_iff =>
    intro before r r' id id' hbefore hid hid'
    exact found_eq_iff hoptions hbefore hid hid'
  case given =>
    intro r id hid
    obtain ⟨c, m, hc, hcompile, hm⟩ := found_reached hoptions hid
    have hspec := resolved_of_compile hcompile
    refine ⟨c, m, hc, hcompile, hspec.source, hspec.destination, hspec.profile, fun since => ?_⟩
    have hlater : rs ++ [r] <+: rs ++ r :: since := ⟨since, by simp⟩
    exact extends_reached hoptions hlater id m hm
  case typed =>
    intro x y profile
    exact serve_typed hindexed x y profile
  case cast =>
    intro r name
    exact (hserved r).ne_typeMismatch name
  case counted =>
    intro r c hc
    obtain ⟨hlookups, hattempts⟩ := (hserved r).lookups hc
    exact ⟨hlookups, hattempts, (hserved r).found_of_builds⟩
  case once =>
    intro before r r' id hbefore hid hsame
    obtain ⟨c, _, hc, _, _⟩ := found_reached hoptions hid
    have hfind := (find?_reached_iff hoptions rs).mpr ⟨before, r, hbefore, hid, c, hc, rfl⟩
    exact (hserved r').unbuilt (.inr ⟨c, id, hsame.trans hc, hfind⟩)
  case builds => exact hindexed.builds
  case distinct =>
    intro id id' m m' hm hm' hpairing
    have hfind := (hindexed.index _ id).mpr ⟨m, hm, rfl⟩
    have hfind' := (hindexed.index _ id').mpr ⟨m', hm', rfl⟩
    rw [hpairing, hfind'] at hfind
    exact (Option.some.inj hfind).symm
  case tried =>
    intro x y profile r
    obtain ⟨hmappers, hattempts⟩ := (hserved r).unbuilt (.inl rfl)
    exact ⟨hmappers, hattempts, fun _ => found_iff_earlier hoptions rs rfl⟩

/-- **There is one instance for each configuration**, of any registered and after any
requests.  The configuration chosen is the last one registered for the very pairing,
else, under a profile, the last one without a profile; and by this choice alone are
instances told apart.

The initial size has to be one that a machine word has a power of two for. -/
theorem one_instance_each (o : Owner) (cs : List Config) (rs : List Request)
    (hoptions : o.options.initialSize ≤ 2 ^ (63 : Nat)) :
    (∀ p, (o.registered cs).choose? p =
      (lastFor cs p).or (if p.profile.isSome then lastFor cs p.plain else none)) ∧
    (o.registered cs).Identified rs := by
  refine ⟨choose?_registered o cs, identified ?_ rs⟩
  rw [options_registered]
  exact hoptions

/-- An owner without mappings, whose keys all have one hash. -/
def bareOwner : Owner where
  schema := noteSchema
  hash _ := 0

/-- Views of notes, registered twice. -/
def viewsTwice : List Config := [{ source := "Note", destination := "View" }, noteView]

/-- The views of notes that are brief, of which there are none. -/
def briefView : Pairing := ⟨.record "Note", .record "View", some "brief"⟩

theorem choose?_viewsTwice (profile : Option String) :
    (bareOwner.registered viewsTwice).choose? (recordPairing "Note" "View" profile) =
      some noteView := by
  rw [choose?_registered]
  cases profile <;>
    simp [lastFor, viewsTwice, noteView, recordPairing, Config.pairing, Pairing.plain]

/-- A brief view is the view registered last, built once for all requests. -/
theorem one_instance_each_views :
    let o := bareOwner.registered viewsTwice
    bareOwner.options.initialSize ≤ 2 ^ (63 : Nat) ∧ ∃ id,
      o.reply [] (.nested briefView) = .found id ∧
      o.reply [.nested briefView] (.mapper "Note" "View" none) = .found id ∧
      o.reply [.nested briefView] (.tryMapper "Note" "View" (some "long")) = .found id ∧
      mapper? (o.reached [.nested briefView]) id =
        some ⟨{ source := "Note", destination := "View", members := [labelPlan] }⟩ := by
  intro o
  have hsize : bareOwner.options.initialSize ≤ 2 ^ (63 : Nat) := by decide
  have hcompile : (o.compile noteView).1 =
      .ok ⟨{ source := "Note", destination := "View", members := [labelPlan] }⟩ :=
    congrArg (Except.map Mapper.mk) (resolve_noteView _)
  obtain ⟨-, hfirst⟩ := one_instance_each bareOwner viewsTwice [] hsize
  obtain ⟨-, hlater⟩ := one_instance_each bareOwner viewsTwice [.nested briefView] hsize
  have hbrief := choose?_viewsTwice (some "brief")
  obtain ⟨id, hid⟩ := (hfirst.answered (.nested briefView) noteView hbrief rfl).1 _ hcompile
  obtain ⟨id', hid'⟩ := (hlater.answered (.mapper "Note" "View" none) noteView
    (choose?_viewsTwice none) rfl).1 _ hcompile
  have hone : id = id' := (hlater.same_iff [] _ _ id id' List.prefix_rfl hid hid').mpr
    (hbrief.trans (choose?_viewsTwice none).symm)
  refine ⟨hsize, id, hid, hone ▸ hid', ?_, ?_⟩
  · exact ((hlater.tried _ _ _).2.2 id).mpr ⟨[], _, List.prefix_rfl, hid,
      hbrief.trans (choose?_viewsTwice (some "long")).symm⟩
  · obtain ⟨c, m, hc, hm, _, _, _, hkept⟩ := hfirst.given _ id hid
    cases hbrief.symm.trans hc
    cases hcompile.symm.trans hm
    exact hkept []

end Owner

end RecordMap
