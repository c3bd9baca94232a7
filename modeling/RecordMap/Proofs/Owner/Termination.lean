import RecordMap.Proofs.Nesting.Parts
import RecordMap.Proofs.Owner.Nesting
import RecordMap.Proofs.Owner.Tour

/-!
# Nested calls terminate

Mappings can lead back to themselves: through pairs that nest each other, or through a
profile that falls back to the mapper being run.  A call still makes only finitely many
nested calls, since each is made with a value within the source of its caller
(`Owner.visiting_descends`).  Calls nest at most as deep as the source of the outermost
one, and so it makes no difference whether there is a bound on nesting that lies beyond
that (`Owner.nesting_terminates`).

Only a provider could hand on a value that is not within the source.  Owners with
providers that feed nested mappers are therefore left out (`Owner.NestsOnPaths`).
-/

namespace RecordMap

/-- **A nested call that descends** from the source of an outermost one: its value lies
within the source of its caller, and so on outwards. -/
structure Visit.Descends (source : Value) (v : Visit) : Prop where
  chain : (v.value :: v.callers).IsChain Value.Within
  outermost : v.callers.getLast? = some source

/-- Calls that descend nest at most as deep as the source is. -/
theorem Visit.Descends.bounded {source : Value} {v : Visit} (h : v.Descends source) :
    v.callers.length + v.value.depth ≤ source.depth :=
  Value.length_add_depth_le h.chain h.outermost

/-- A call that is nested in one that descends. -/
theorem Visit.Descends.nested {source w : Value} {v : Visit} (h : v.Descends source)
    (hw : w.Within v.value) (p : Pairing) (q : Option Value) :
    Visit.Descends source
      { callers := v.value :: v.callers, pairing := p, value := w, parameter := q } := by
  constructor
  case chain => exact List.isChain_cons_cons.mpr ⟨hw, h.chain⟩
  case outermost =>
    show (v.value :: v.callers).getLast? = some source
    rw [List.getLast?_cons, h.outermost]
    rfl

/-- A fault of a kind that has nothing to do with the bound on nesting. -/
theorem ne_nestingTooDeep {kind : MapError → Prop} {e : MapError} (h : kind e)
    (hkind : ¬ kind .nestingTooDeep) : e ≠ .nestingTooDeep := by
  rintro rfl
  exact hkind h

/-- Nor has the lack of a parameter. -/
theorem Supplied.of_bound {σ : Schema} {room : Prop} {parameter : Option Value} {t : Ty} :
    Supplied σ (fun e => room → e ≠ .nestingTooDeep) parameter t := by
  intro _ _ h
  cases h

/-- Trails that are the same stay the same. -/
theorem Trail.keepsNotes_eq {ω : Type} : Trail.KeepsNotes fun t t' : Trail ω => t = t' := by
  rintro t _ label rfl
  rfl

namespace Owner

/-- No provider feeds a nested mapper, in any mapping of the owner that resolves. -/
def NestsOnPaths (o : Owner) : Prop :=
  ∀ c ∈ o.configs, ∀ m, (o.compile c).1 = .ok m → m.spec.NestsOnPaths

variable {o : Owner} {id : Nat} {m : Mapper} {t : Trail State} {i : Invocation}
  {limit limit' : Nat}

/-! ## §1. Bounds on nesting -/

theorem within_visiting (o : Owner) (bound : Nat) :
    ∀ limit callers id, (o.within bound).visiting limit callers id = o.visiting limit callers id := by
  intro limit
  induction limit with
  | zero =>
    intro callers id
    rfl
  | succ limit ih =>
    intro callers id
    funext i p v q
    rw [visiting, visiting]
    simp only [ih]
    rfl

/-- The tour of an instance, to any bound. -/
theorem tour_within (hm : mapper? t.outside id = some m) (bound : Nat) (i : Invocation) :
    (o.within bound).tour id i t = m.invoke o.schema (o.visiting bound i.source?.toList id) i
      { journal := t.journal, outside := { state := t.outside } } := by
  unfold tour
  rw [hm]
  dsimp only
  rw [within_visiting]
  rfl

/-- **A higher bound only goes further**: the nested call is the same unless it went too
deep for the lower one. -/
theorem visiting_simulates_deeper (h : limit ≤ limit') (callers : List Value) (id i : Nat)
    (p : Pairing) :
    Nesting.Simulates (fun t t' => t = t') (fun e _ => e = .nestingTooDeep)
      (o.visiting limit callers id i) (o.visiting limit' callers id i) p := by
  induction limit generalizing limit' callers id i p with
  | zero =>
    intro v q t t' _
    exact .inl ⟨_, rfl, rfl⟩
  | succ limit ih =>
    obtain ⟨k, rfl⟩ : ∃ k, limit' = k + 1 := ⟨limit' - 1, by omega⟩
    intro v q
    rw [visiting, visiting]
    refine (Run.Simulates.refl _).bind fun _ => ?_
    refine (Run.Simulates.refl _).bind fun child => ?_
    refine (Run.Simulates.refl _).bind fun m => ?_
    exact m.simulates_constructAny Trail.keepsNotes_eq
      (fun j p' _ => ih (Nat.le_of_succ_le_succ h) (v :: callers) child j p') v q

/-! ## §2. Nested calls descend -/

section

variable (hpaths : o.NestsOnPaths)

include hpaths

/-- **A nested call that descends** leads to such calls only, and if they have room for
the depth of the source none of them goes too deep. -/
theorem visiting_descends {source : Value} {bound : Nat} {callers : List Value} {p : Pairing}
    {v : Value} {q : Option Value} (hlevel : limit + callers.length = bound + 1)
    (hvisit : Visit.Descends source { callers, pairing := p, value := v, parameter := q })
    (id i : Nat) :
    Trail.Confined (Tour.Over o (Visit.Descends source))
      (fun e => source.depth ≤ bound → e ≠ .nestingTooDeep)
      (o.visiting limit callers id i p v q) := by
  induction limit generalizing callers id i p v q with
  | zero =>
    -- Turned away at the bound, so the source is deeper.
    have hdeep : callers.length + v.depth ≤ source.depth := hvisit.bounded
    unfold visiting
    refine (Tour.confined_enter hvisit).bind fun _ _ => .throw fun hroom _ => ?_
    omega
  | succ limit ih =>
    refine visiting_confined_succ (fun e he _ => ne_nestingTooDeep he not_false) hvisit
      (fun c hc m hm child => ?_) id i
    refine m.confined_constructAny (fun e he _ => ne_nestingTooDeep he not_false) v q
      (fun e he _ => ne_nestingTooDeep he not_false) (fun _ _ => .of_bound)
      fun j p' w hhands => ?_
    have hwithin := hhands.within (resolved_of_compile hm) (hpaths c hc m hm)
    have hlevel' : limit + (v :: callers).length = bound + 1 := by
      rw [List.length_cons]
      omega
    exact ih hlevel' (hvisit.nested hwithin p' _) child j

/-- **A tour descends**, and if there is room for the depth of the source it does not go
too deep. -/
theorem tour_descends (h : t.outside.Compiled o) (hm : mapper? t.outside id = some m)
    (bound : Nat) (i : Invocation) :
    ((∀ source ∈ i.source?, source.depth ≤ bound) →
      ((o.within bound).tour id i t).1.failure? ≠ some .nestingTooDeep) ∧
    ∀ v ∈ ((o.within bound).tour id i t).2.outside.visits,
      ∃ source ∈ i.source?, v.Descends source := by
  rw [tour_within hm]
  cases hsource : i.source? with
  | none =>
    obtain ⟨r, hr, hinvoke⟩ := Mapper.invoke_of_absent o.schema m hsource
    rw [hinvoke, hr]
    exact ⟨fun _ => nofun, nofun⟩
  | some source =>
    obtain ⟨c, hc, hcompile⟩ := h id m hm
    have hnest : ∀ s, i.source? = some s → ∀ j p w, m.spec.Hands o.schema s j p w →
        Trail.Confined (Tour.Over o (Visit.Descends source))
          (fun e => source.depth ≤ bound → e ≠ .nestingTooDeep)
          (o.visiting bound [source] id j p w (m.spec.handedOn (m.taken i))) := by
      intro s hs j p w hhands
      obtain rfl : s = source := Option.some.inj (hs.symm.trans hsource)
      have hwithin := hhands.within (resolved_of_compile hcompile) (hpaths c hc m hcompile)
      exact visiting_descends hpaths rfl ⟨.cons_cons hwithin (.singleton _), rfl⟩ id j
    obtain ⟨hfailure, hover⟩ := m.confined_invoke
      (fun e he _ => ne_nestingTooDeep he not_false)
      (fun e he _ => ne_nestingTooDeep (Mapper.isRefusal_of_rejection he) not_false)
      (fun _ _ _ => .of_bound) hnest
      (t := { journal := t.journal, outside := { state := t.outside } }) ⟨h, nofun⟩
    refine ⟨fun hroom hdeep => ?_, fun v hv => ⟨source, rfl, hover.visits v hv⟩⟩
    exact hfailure _ hdeep (hroom source rfl) rfl

/-! ## §3. Tours that end -/

/-- **An invocation ends by descending**: whatever the bound on nesting, each nested call
gets a value within the source of its caller, so that calls nest no deeper than the source
of the invocation; and the nested calls are the same finitely many for every bound that
has room for the depth of the source. -/
structure Descends (o : Owner) (id : Nat) (i : Invocation) (t : Trail State) : Prop where
  recorded : ∀ bound, ((o.within bound).tour id i t).1 = ((o.within bound).invoke id i t).1 ∧
    Tour.Follows ((o.within bound).invoke id i t).2 ((o.within bound).tour id i t).2
  visits : ∀ bound, ∀ v ∈ ((o.within bound).tour id i t).2.outside.visits,
    ∃ source ∈ i.source?, v.Descends source ∧ v.callers.length + v.value.depth ≤ source.depth
  ends : ∃ tour : Outcome × Trail Tour, tour.1.failure? ≠ some .nestingTooDeep ∧
    ∀ bound, (∀ source ∈ i.source?, source.depth ≤ bound) → (o.within bound).tour id i t = tour

/-- Bounds that have room for the depth of the source make no difference. -/
theorem tour_unbounded (h : t.outside.Compiled o) (hm : mapper? t.outside id = some m)
    {bound bound' : Nat} (hle : bound ≤ bound')
    (hroom : ∀ source ∈ i.source?, source.depth ≤ bound) :
    (o.within bound).tour id i t = (o.within bound').tour id i t := by
  have hshallow := (tour_descends hpaths h hm bound i).1 hroom
  rw [tour_within hm] at hshallow
  rw [tour_within hm, tour_within hm]
  have hmatch := m.invoke_matches (σ := o.schema) Trail.keepsNotes_eq
    (fun j p _ => visiting_simulates_deeper (o := o) hle i.source?.toList id j p) i
    (rfl : ({ journal := t.journal, outside := { state := t.outside } } : Trail Tour) = _)
  rcases hmatch with ⟨e, hfailure, rfl⟩ | ⟨houtcome, htrail⟩
  · exact absurd hfailure hshallow
  · exact Prod.ext houtcome htrail

end

/-! ## §4. Mappings that lead back to themselves -/

/-- Nodes that may lead to a next node, and copies of them. -/
def nodeSchema : Schema where
  naming := ⟨"Text", "Option", "List"⟩
  record
    | "Node" => { fields := [{ name := "next", type := .option (.record "Node") }] }
    | "Copy" => { fields := [{ name := "next", type := .option (.record "Copy") }] }
    | _ => {}
  enum _ := { first := { name := "", underlying := 0 } }
  rank _ := 0
  contains_lt := by
    rintro r r' ⟨f, hf, ht⟩
    split at hf <;> simp at hf <;> simp [hf] at ht

/-- Copies of nodes.  The next node is copied under a profile of its own. -/
def nodeCopy : Config where
  source := "Node"
  destination := "Copy"
  members := [{ name := "next", origins := [.nested "next" (some "deep")] }]

/-- An owner of this mapping only: the profile falls back to it. -/
def nodesOwner : Owner where
  schema := nodeSchema
  configs := [nodeCopy]
  hash _ := 0

/-- The plan of the next node. -/
def nextPlan : MemberPlan where
  member := "next"
  type := .option (.record "Copy")
  declaration := 0
  strategy := .nested
  production := .read
    (.path { head := 0, terminal := .option (.record "Node"), names := ["next"] })
    (.unwrap (.record "Node")
      (.wrap (.record "Copy") (.nested ⟨.record "Node", .record "Copy", some "deep"⟩)))
    none

theorem verdicts_nodeCopy : nodeCopy.verdicts nodeSchema {} = [(.planned nextPlan, {})] := by
  with_unfolding_all rfl

theorem resolve_nodeCopy (name : String) :
    (nodeCopy.resolve nodeSchema {} { pair := name }).result =
      .ok { source := "Node", destination := "Copy", members := [nextPlan] } := by
  unfold Config.resolve
  rw [verdicts_nodeCopy]
  with_unfolding_all rfl

theorem compile_nodeCopy : (nodesOwner.compile nodeCopy).1 =
    .ok ⟨{ source := "Node", destination := "Copy", members := [nextPlan] }⟩ :=
  congrArg (Except.map Mapper.mk) (resolve_nodeCopy _)

/-- **Nested calls terminate.**  For every owner without providers that feed nested
mappers, every instance after any operations, and every call of it. -/
theorem nesting_terminates (o : Owner) (ops : List Operation) (hpaths : o.NestsOnPaths)
    (hm : mapper? (o.after ops) id = some m) (j : Journal) (i : Invocation) :
    o.Descends id i { journal := j, outside := o.after ops } := by
  have hcompiled : (o.after ops).Compiled o := (consistent_after o ops).compiled
  have hdescends := tour_descends hpaths (t := { journal := j, outside := o.after ops }) hcompiled hm
  constructor
  case recorded => exact fun bound => tour_spec (o.within bound) id i _
  case visits =>
    intro bound v hv
    obtain ⟨source, hsource, hv⟩ := (hdescends bound i).2 v hv
    exact ⟨source, hsource, hv, hv.bounded⟩
  case ends =>
    -- The least bound with room is the depth of the source.
    have hroom : ∀ source ∈ i.source?, source.depth ≤ (i.source?.map (·.depth)).getD 0 := by
      intro source hsource
      rw [hsource]
      exact le_refl _
    refine ⟨_, (hdescends _ i).1 hroom, fun bound hbound => ?_⟩
    refine (tour_unbounded hpaths hcompiled hm ?_ hroom).symm
    cases hsource : i.source? with
    | none => exact Nat.zero_le _
    | some source => exact hbound source hsource

/-- A node and the next one: the mapping nests itself once. -/
theorem nesting_terminates_node :
    let nodes : Pairing := ⟨.record "Node", .record "Copy", none⟩
    let m : Mapper := ⟨{ source := "Node", destination := "Copy", members := [nextPlan] }⟩
    let last : Value := .record "Node" [.absent (.record "Node")]
    let node : Value := .record "Node" [.present last]
    let t : Trail State := { outside := nodesOwner.after [.request nodes] }
    nodesOwner.NestsOnPaths ∧ mapper? t.outside 0 = some m ∧
      nodesOwner.choose? { nodes with profile := some "deep" } = some nodeCopy ∧
      (nodesOwner.tour 0 (.construct node) t).2.outside.visits.map (·.value) = [last] ∧
      nodesOwner.Descends 0 (.construct node) t := by
  intro nodes m last node t
  have hpaths : nodesOwner.NestsOnPaths := by
    intro c hc m' hm'
    cases List.mem_singleton.mp hc
    rw [compile_nodeCopy] at hm'
    cases hm'
    intro plan hplan f conversion sentinel hread
    cases List.mem_singleton.mp hplan
    cases hread
  have hm : mapper? t.outside 0 = some m := mapper?_after_request compile_nodeCopy
  refine ⟨hpaths, hm, rfl, ?_, nesting_terminates nodesOwner [.request nodes] hpaths hm {} _⟩
  unfold tour
  rw [hm]
  with_unfolding_all rfl

end Owner

end RecordMap
