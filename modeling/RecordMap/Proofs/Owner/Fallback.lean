import RecordMap.Proofs.Owner.Slots
import RecordMap.Proofs.Owner.Termination
import RecordMap.Proofs.Plan.SelfNesting

/-!
# Mappers that lead back to themselves

No plan nests its own coordinates, and a mapping that would is rejected when it is built.  But
coordinates are compared before it is known which mapper they lead to.  Which one they do is
decided by the owner when the member is first run: a profile that nobody configured falls back to
the mapping without a profile.

So a mapper can be led back to itself, in one way: it has no profile, and a member of it nests its
own two records under a profile that has no configuration of its own
(`Owner.leads_back_iff`).  Such a mapper nests the very instance it is
(`Owner.nested_instance_iff`).
-/

namespace RecordMap

-- Powers are the built-in ones, whichever library is in scope.
attribute [local instance (high)] instPowNat

namespace Owner

variable {o : Owner} {s : State} {id i : Nat} {p q : Pairing} {c : Config} {m : Mapper}

/-! ## §1. Configurations that are chosen -/

/-- Nobody configured the pairing. -/
def Unconfigured (o : Owner) (p : Pairing) : Prop := o.configs.find? (·.pairing == p) = none

/-- **A pairing leads back** to the mapping it is nested in just if it falls back to it. -/
theorem leads_back_iff (hc : o.configs.find? (·.pairing == c.pairing) = some c)
    (hm : (o.compile c).1 = .ok m) (hnests : m.spec.NestsAt i p) :
    o.choose? p = some c ↔ p.plain = c.pairing ∧ o.Unconfigured p := by
  have hne : p ≠ c.pairing := (resolved_of_compile hm).ne_pairing hnests
  unfold choose? Unconfigured
  constructor
  · intro hchosen
    rcases Option.or_eq_some_iff.mp hchosen with hexact | ⟨hnone, hplain⟩
    · have hkey : c.pairing = p := by simpa using List.find?_some hexact
      exact absurd hkey.symm hne
    · have hkey : c.pairing = p.plain := by simpa using List.find?_some hplain
      exact ⟨hkey.symm, hnone⟩
  · intro h
    obtain ⟨hplain, hnone⟩ := h
    rw [hnone, hplain, hc]
    rfl

/-- A pairing that falls back asks for the same records under some profile, and what it falls back
to has none. -/
theorem profile_of_plain (hplain : p.plain = c.pairing) (hne : p ≠ c.pairing) :
    p.profile ≠ none ∧ c.profile = none := by
  have hprofile : c.profile = none := (congrArg Pairing.profile hplain).symm
  refine ⟨?_, hprofile⟩
  intro hnone
  refine hne ?_
  rw [← hplain]
  obtain ⟨source, destination, profile⟩ := p
  cases hnone
  rfl

/-! ## §2. Instances -/

/-- **A nested request gives the very instance** that makes it just if its pairing leads back to the
mapping of the instance. -/
theorem nested_instance_iff (h : o.Indexed s) (hm : mapper? s id = some m)
    (hc : o.configs.find? (·.pairing == c.pairing) = some c) (hcompile : (o.compile c).1 = .ok m)
    (j : Journal) :
    (o.request p { journal := j, outside := s }).1 = .ok id ↔ o.choose? p = some c := by
  have hpairing : m.spec.pairing = c.pairing := pairing_of_compile hcompile
  have hindex : s.registry.find? c.pairing = some id := (h.index _ _).mpr ⟨m, hm, hpairing⟩
  constructor
  · intro hrequest
    cases hchosen : o.choose? p with
    | none =>
      rw [request_of_unknown hchosen] at hrequest
      cases hrequest
    | some c' =>
      have hc' := find?_of_choose? hchosen
      -- The instance is the one under the pairing of the chosen configuration.
      have hkey : c'.pairing = c.pairing := by
        cases hfind : s.registry.find? c'.pairing with
        | some id' =>
          rw [request_of_hit hchosen hfind] at hrequest
          cases hrequest
          obtain ⟨m', hm', hpairing'⟩ := (h.index _ _).mp hfind
          rw [hm] at hm'
          cases hm'
          rw [← hpairing', hpairing]
        | none =>
          cases hresult : (o.compile c').1 with
          | error e =>
            rw [request_of_failed hchosen hfind hresult] at hrequest
            cases hrequest
          | ok m' =>
            rw [request_of_built hchosen hfind hresult] at hrequest
            cases hrequest
            -- A new instance has a number that no instance has yet.
            have hsize : mapper? s s.mappers.size = none := by
              unfold mapper?
              simp
            rw [hsize] at hm
            cases hm
      rw [hkey, hc] at hc'
      cases hc'
      rfl
  · intro hchosen
    rw [request_of_hit hchosen hindex]

/-! ## §3. Mappings that nest themselves -/

/-- A mapping is rejected for a member that nests it, and for no other. -/
theorem selfReferential_compile_iff {member : String} :
    (∃ e, (o.compile c).1 = .error e ∧
      .selfReferentialNesting member (c.pairing.name o.schema) ∈ e.diagnostics) ↔
      ∃ t ∈ c.targets o.schema, t.1.name = member ∧ c.NestsItself o.schema o.defaults t.1 := by
  have hreported : .selfReferentialNesting member (c.pairing.name o.schema) ∈
      (c.resolve o.schema o.defaults { pair := c.pairing.name o.schema }).diagnostics ↔ _ :=
    Config.selfReferential_iff rfl
  rw [eq_self, true_and] at hreported
  rw [← hreported]
  unfold compile Config.Resolution.diagnostics
  dsimp only
  cases (c.resolve o.schema o.defaults { pair := c.pairing.name o.schema }).result with
  | ok spec => simp [Except.map]
  | error e => simp [Except.map]

/-- Copies of nodes nest their own mapping, under a profile that falls back to it. -/
theorem led_back_nodeCopy :
    ¬ ∀ (o : Owner) (q : Pairing) (c : Config) (m : Mapper) (i : Nat) (p : Pairing),
      o.choose? q = some c → (o.compile c).1 = .ok m → m.spec.NestsAt i p →
        o.choose? p ≠ some c := by
  intro h
  have hnests : Specification.NestsAt
      { source := "Node", destination := "Copy", members := [nextPlan] } 0
      ⟨.record "Node", .record "Copy", some "deep"⟩ :=
    ⟨nextPlan, List.mem_singleton.mpr rfl, rfl, _, _, _, rfl, List.mem_singleton.mpr rfl⟩
  exact h nodesOwner ⟨.record "Node", .record "Copy", none⟩ nodeCopy _ 0 _ rfl compile_nodeCopy
    hnests rfl

/-- **A mapper is led back to itself by fallback only.**  Let an owner build a mapper.  No member
of it nests the coordinates of the mapper.  The configuration chosen for a nested pairing is that
of the mapper just if the pairing falls back to it: the mapper has no profile, and the pairing is
of the same records under a profile that nobody configured.  In every state reached, a nested
request gives the very instance just if this is so.

A mapping in which a member would nest the coordinates of the mapping is rejected, with a problem
for each such member. -/
theorem nests_itself_by_fallback (o : Owner) :
    (∀ (q : Pairing) (c : Config) (m : Mapper), o.choose? q = some c → (o.compile c).1 = .ok m →
      ∀ (i : Nat) (p : Pairing), m.spec.NestsAt i p →
        p ≠ m.spec.pairing ∧
        (o.choose? p = some c ↔ p.plain = m.spec.pairing ∧ o.Unconfigured p) ∧
        (o.choose? p = some c → m.spec.profile = none ∧ p.profile ≠ none) ∧
        (o.options.initialSize ≤ 2 ^ (63 : Nat) → ∀ ops id j, mapper? (o.after ops) id = some m →
          ((o.request p { journal := j, outside := o.after ops }).1 = .ok id ↔
            o.choose? p = some c))) ∧
      ∀ (c : Config) (member : String),
        (∃ e, (o.compile c).1 = .error e ∧
          .selfReferentialNesting member (c.pairing.name o.schema) ∈ e.diagnostics) ↔
        ∃ t ∈ c.targets o.schema, t.1.name = member ∧ c.NestsItself o.schema o.defaults t.1 := by
  refine ⟨?_, fun c member => selfReferential_compile_iff⟩
  intro q c m hq hm i p hnests
  have hc := find?_of_choose? hq
  have hpairing : m.spec.pairing = c.pairing := pairing_of_compile hm
  have hback := leads_back_iff hc hm hnests
  have hne : p ≠ c.pairing := (resolved_of_compile hm).ne_pairing hnests
  rw [hpairing]
  refine ⟨hne, hback, ?_, ?_⟩
  · intro hchosen
    obtain ⟨hprofile, hplain⟩ := profile_of_plain (hback.mp hchosen).1 hne
    exact ⟨(resolved_of_compile hm).profile.trans hplain, hprofile⟩
  · intro hsize ops id j hid
    exact nested_instance_iff (slotted_after hsize ops).indexed hid hc hm j

/-- Copies of nodes whose next node is copied by the same mapping. -/
def nodeLoop : Config where
  source := "Node"
  destination := "Copy"
  members := [{ name := "next", origins := [.nested "next" none] }]

/-- Nodes nest the instance they are copied by under a profile that falls back to it; without the
profile the mapping is rejected. -/
theorem nests_itself_by_fallback_nodes :
    let nodes : Pairing := ⟨.record "Node", .record "Copy", none⟩
    let deep : Pairing := { nodes with profile := some "deep" }
    let m : Mapper := ⟨{ source := "Node", destination := "Copy", members := [nextPlan] }⟩
    m.spec.NestsAt 0 deep ∧ deep ≠ m.spec.pairing ∧ nodesOwner.choose? deep = some nodeCopy ∧
      mapper? (nodesOwner.after [.request nodes]) 0 = some m ∧
      (nodesOwner.request deep { outside := nodesOwner.after [.request nodes] }).1 = .ok 0 ∧
      ∃ e, (nodesOwner.compile nodeLoop).1 = .error e ∧
        .selfReferentialNesting "next" (nodes.name nodeSchema) ∈ e.diagnostics := by
  intro nodes deep m
  have hnests : m.spec.NestsAt 0 deep :=
    ⟨nextPlan, List.mem_singleton.mpr rfl, rfl, _, _, _, rfl, List.mem_singleton.mpr rfl⟩
  have hm : mapper? (nodesOwner.after [.request nodes]) 0 = some m :=
    mapper?_after_request compile_nodeCopy
  obtain ⟨hmappers, hrejected⟩ := nests_itself_by_fallback nodesOwner
  obtain ⟨hne, hback, -, hinstance⟩ := hmappers nodes nodeCopy m rfl compile_nodeCopy 0 deep hnests
  have hchosen : nodesOwner.choose? deep = some nodeCopy := hback.mpr ⟨rfl, rfl⟩
  refine ⟨hnests, hne, hchosen, hm, (hinstance (by decide) _ 0 {} hm).mpr hchosen, ?_⟩
  refine (hrejected nodeLoop "next").mpr ?_
  have hloop : nodeLoop.NestsItself nodeSchema {} { name := "next", type := .option (.record "Copy") } := by
    refine ⟨rfl, by decide, rfl,
      .path { head := 0, terminal := .option (.record "Node"), names := ["next"] },
      .unwrap (.record "Node") (.wrap (.record "Copy") (.nested nodes)), ?_,
      List.mem_singleton.mpr rfl⟩
    with_unfolding_all rfl
  exact ⟨({ name := "next", type := .option (.record "Copy") }, 0),
    Config.mem_targets.mpr ⟨rfl, rfl⟩, rfl, hloop⟩

end Owner

end RecordMap
