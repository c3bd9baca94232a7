import RecordMap.Proofs.Conversion.Leafwise
import RecordMap.Proofs.Plan.Absence
import RecordMap.Proofs.Typing.Plan

/-!
# Structure of assigned members

A member of a wrapped type that is read from a source of the same wrapper is
assigned the leaves of the source, converted from left to right, in the structure of
the source; and the assignment fails just when a leaf does.

The structure is that of the source itself where its values are only copied, and
wherever no present option holds an empty one.  Otherwise it is that of the collapsed
source: an option that holds an empty option is assigned as an empty option.
-/

namespace RecordMap

variable {ω : Type} {σ : Schema} {c : Config} {d : Defaults} {spec : Specification}
  {plan : MemberPlan} {parameter handedOn : Option Value} {nest : Nesting ω} {source : Value}

/-! ## §1. Reading a member -/

/-- **The source value of a member is obtained**: along the path, or from the
provider. -/
def Accessor.Obtains (σ : Schema) (parameter : Option Value) (recordName : String)
    (source destination : Value) (call : Call ω) (raw : Value) (call' : Call ω) : Accessor → Prop
  | path p => p.read? σ recordName source = some raw ∧ call' = call
  | provider p => (p.provide σ parameter source destination).run call = (.ok raw, call')

/-- A source value that is obtained is converted. -/
theorem Accessor.Obtains.run_read {a : Accessor} {recordName : String} {destination raw : Value}
    {call call' : Call ω} (h : a.Obtains σ parameter recordName source destination call raw call')
    (conversion : Conversion) :
    (a.read σ parameter handedOn nest recordName source destination conversion).run call =
      (conversion.run σ parameter handedOn nest raw).run call' := by
  unfold Accessor.read
  cases a with
  | path p =>
    obtain ⟨hraw, rfl⟩ := h
    simp only [hraw]
  | provider p => exact Run.run_bind_ok h

/-- A member whose value fails keeps what it has. -/
theorem MemberPlan.run_assign_of_error {m : MemberPlan} {recordName : String}
    {start ready : Assembly ω} {call : Call ω} {e : MapError}
    (hconditions : (Assembly.onCall (Condition.allHold σ parameter source m.conditions)).run start =
      (.ok true, ready))
    (hvalue : (m.value σ parameter handedOn nest recordName source ready.destination).run ready.call =
      (.error e, call)) :
    (m.assign σ parameter handedOn nest recordName source).run start =
      (.error e, { ready with call }) := by
  unfold MemberPlan.assign
  rw [Run.run_bind_ok hconditions]
  have hstep : (Assembly.onCall (m.value σ parameter handedOn nest recordName source
      ready.destination)).run ready = (.error e, { ready with call }) := by
    unfold Assembly.onCall
    rw [Run.run_zoom, hvalue]
  show (get >>= _ : Run (Assembly ω) Unit).run ready = _
  rw [Run.run_bind_ok (Run.run_get ready), Run.run_bind_error hstep]

theorem MemberPlan.run_value_of_error {m : MemberPlan} {recordName : String} {destination : Value}
    {call call' : Call ω} {a : Accessor} {conversion : Conversion} {sentinel : Option Value}
    {e : MapError} (hread : m.production = .read a conversion sentinel)
    (hrun : (a.read σ parameter handedOn nest recordName source destination conversion).run call =
      (.error e, call')) :
    (m.value σ parameter handedOn nest recordName source destination).run call =
      (.error e, call') := by
  unfold MemberPlan.value
  rw [hread]
  exact Run.run_bind_error hrun

/-! ## §2. Conversions of wrapped members -/

/-- A search for conversions that a mapping uses: its own, or that of nested
mappings. -/
def Config.Searches (c : Config) (d : Defaults) (find : Ty → Ty → Option Conversion) : Prop :=
  find = (c.scope d).resolve ∨ ∃ profile, find = Scope.nesting profile

variable {find : Ty → Ty → Option Conversion} {a b : Ty}

theorem Config.Searches.wrapped (h : c.Searches d find) (hkeyed : (c.scope d).KeyedOnLeaves)
    (ha : a.isContainer = false) (hb : b.isContainer = false) (W : Wrapper) :
    find (W.ty a) (W.ty b) = (find a b).map fun leaf => W.lift a b leaf := by
  rcases h with rfl | ⟨profile, rfl⟩
  · exact hkeyed.resolve_ty ha hb W
  · exact Scope.nesting_ty ha hb profile W

theorem Config.Searches.joins (h : c.Searches d find) {P : Converter → Prop}
    (hscope : (c.scope d).Satisfies P) {k : Conversion} (hk : find a b = some k) :
    k.Joins P a b := by
  rcases h with rfl | ⟨profile, rfl⟩
  · exact Scope.joins_resolve hscope hk
  · exact Scope.joins_nesting hk

/-- The conversion of a read member has been found by one of the searches. -/
theorem Config.Sourced.searched {member : String} {type : Ty} {origin : Option Origin}
    {a : Accessor} {conversion : Conversion}
    (h : c.Sourced σ d member type origin a conversion) :
    ∃ find, c.Searches d find ∧ find a.type type = some conversion := by
  cases h with
  | path _ found => exact ⟨_, .inl rfl, found⟩
  | provider found => exact ⟨_, .inl rfl, found⟩
  | nested _ found => exact ⟨_, .inr ⟨_, rfl⟩, found⟩
  | automatic _ found => exact ⟨_, .inl rfl, found⟩

/-- An option has no sentinel. -/
theorem Config.Resolved.sentinel_eq_none (h : c.Resolved σ d spec) (hplan : plan ∈ spec.members)
    {a : Accessor} {conversion : Conversion} {sentinel : Option Value}
    (hread : plan.production = .read a conversion sentinel) (hnull : plan.type.isNullable = true) :
    sentinel = none := by
  cases (h.read hplan hread).2 with
  | sentinel needed _ _ =>
    have := (Config.needsSentinel_iff.mp needed).1
    rw [hnull] at this
    cases this
  | unguarded _ => rfl

/-- **The assignment follows the leaves** of a source value that is obtained: it fails
with them, and else assigns what carries them. -/
theorem Config.Resolved.run_assign_lift (h : c.Resolved σ d spec) (hplan : plan ∈ spec.members)
    {K : ω → Prop} {W : Wrapper} {accessor : Accessor} {leaf : Conversion}
    {sentinel : Option Value} (hread : plan.production = .read accessor (W.lift a b leaf) sentinel)
    (hjoins : leaf.Joins (·.Sound σ) a b) (htarget : plan.type = W.ty b)
    (ha : a.isContainer = false) (hb : b.isContainer = false)
    (hnest : ∀ p ∈ leaf.pairings, Nesting.Sound σ K nest p)
    (hp : ParameterWellFormed σ parameter) (hh : ParameterWellFormed σ handedOn)
    {start ready : Assembly ω} {call : Call ω} {raw : Value}
    (hconditions : (Assembly.onCall (Condition.allHold σ parameter source plan.conditions)).run
      start = (.ok true, ready))
    (hobtains : accessor.Obtains σ parameter spec.source source ready.destination ready.call raw call)
    (hraw : raw.HasType σ (W.ty a)) (hcall : call.WellFormed σ K) :
    ∃ call',
      (∃ e, ((W.leaves raw).mapM (leaf.run σ parameter handedOn nest)).run call =
          (.error e, call') ∧
        (plan.assign σ parameter handedOn nest spec.source source).run start =
          (.error e, { ready with call := call' })) ∨
      ∃ outs w, ((W.leaves raw).mapM (leaf.run σ parameter handedOn nest)).run call =
          (.ok outs, call') ∧
        W.Carries σ b leaf raw w outs ∧
        (plan.assign σ parameter handedOn nest spec.source source).run start =
          (.ok (), { destination := ready.destination.setMember plan.declaration w,
                     call := call' }) := by
  have hrun : (accessor.read σ parameter handedOn nest spec.source source ready.destination
      (W.lift a b leaf)).run ready.call = _ := hobtains.run_read (W.lift a b leaf)
  obtain ⟨call', -, ⟨e, hlift, hleaves⟩ | ⟨o, outs, hlift, hleaves, hcarries, hnone⟩⟩ :=
    Wrapper.run_lift (W := W) hjoins ha hb hnest hp hh hraw call hcall
  · rw [hlift] at hrun
    exact ⟨call', .inl ⟨e, hleaves, MemberPlan.run_assign_of_error hconditions
      (MemberPlan.run_value_of_error hread hrun)⟩⟩
  · rw [hlift] at hrun
    -- None is given only for an option, which has no sentinel in its place.
    have hvalue : o.getD (sentinel.getD (Value.zero σ plan.type)) =
        o.getD (Value.zero σ (W.ty b)) := by
      cases o with
      | some w => rfl
      | none =>
        have hnull := hnone rfl
        rw [← htarget] at hnull ⊢
        rw [h.sentinel_eq_none hplan hread hnull]
        rfl
    have hassign := MemberPlan.run_assign hconditions (MemberPlan.run_value hread hrun)
    rw [hvalue, MemberPlan.settled_of_type (hcarries.typed.type_eq.trans htarget.symm)] at hassign
    exact ⟨call', .inr ⟨outs, _, hleaves, hcarries, hassign⟩⟩

/-! ## §3. Gauges and their displays -/

/-- Gauges, whose reading can be missing in two ways, and displays of them. -/
def gaugeSchema : Schema where
  naming := ⟨"Text", "Option", "List"⟩
  record
    | "Gauge" => { fields := [{ name := "reading", type := .option (.option (.prim (.int .i32))) }] }
    | "Display" => { fields := [{ name := "reading", type := .option (.option (.prim .text)) }] }
    | _ => {}
  enum _ := { first := { name := "", underlying := 0 } }
  rank _ := 0
  contains_lt := by
    rintro r r' ⟨f, hf, ht⟩
    split at hf <;> simp at hf <;> simp [hf] at ht

/-- Displays of gauges, with nothing configured. -/
def gaugeDisplay : Config where
  source := "Gauge"
  destination := "Display"

/-- An integer in two options, and a text in two options. -/
def twofold : Wrapper := .option (.option .bare)

/-- The plan of the reading. -/
def readingPlan : MemberPlan where
  member := "reading"
  type := twofold.ty (.prim .text)
  declaration := 0
  strategy := .viaConverter
  production := .read
    (.path { head := 0, terminal := twofold.ty (.prim (.int .i32)), names := ["reading"] })
    (twofold.lift (.prim (.int .i32)) (.prim .text) (.primitive (.int .i32) .text)) none

theorem verdicts_gaugeDisplay :
    gaugeDisplay.verdicts gaugeSchema {} = [(.planned readingPlan, {})] := by
  with_unfolding_all rfl

theorem resolve_gaugeDisplay (name : String) :
    (gaugeDisplay.resolve gaugeSchema {} { pair := name }).result =
      .ok { source := "Gauge", destination := "Display", members := [readingPlan] } := by
  unfold Config.resolve
  rw [verdicts_gaugeDisplay]
  with_unfolding_all rfl

theorem resolve_reading : (gaugeDisplay.scope {}).resolve (.prim (.int .i32)) (.prim .text) =
    some (.primitive (.int .i32) .text) := by
  with_unfolding_all rfl

theorem sound_gaugeDisplay : gaugeDisplay.Sound gaugeSchema where
  converters _ h := nomatch h
  constants _ h := nomatch h
  sentinels _ h := nomatch h
  origins _ h := nomatch h
  memberSentinels _ h := nomatch h
  factory _ h := nomatch h
  before _ h := nomatch h
  after _ h := nomatch h

theorem Defaults.sound_empty (σ : Schema) : ({} : Defaults).Sound σ := by
  constructor <;> exact fun _ h => nomatch h

theorem keyedOnLeaves_gaugeDisplay : (gaugeDisplay.scope {}).KeyedOnLeaves := by
  rintro a b k (hk | hk | hk) <;> cases hk

/-! ## §4. The assignment as a whole -/

/-- **Structure and leaves are kept.**  Take a mapping that resolves, with sound
callbacks and no converter or operator keyed on an option or a sequence, two leaf
types, and any wrapper of options and sequences.

1. Between the wrapped types the searches find the wrapped conversion of the leaves,
   and nothing if there is none between the leaves.
2. A member of the one wrapped type that is read from a source of the other has such
   a conversion.  With its conditions met, its assignment fails just when a leaf of
   the source value fails to convert, with the failure of the first that does, and
   then changes nothing.  If it succeeds, the value assigned has the converted leaves
   from left to right in the structure carried over.
3. Collapsing loses no leaf, and it loses structure just if a present option holds an
   empty one. -/
theorem structure_kept {session : Session} (hc : c.Sound σ) (hd : d.Sound σ)
    (hresolved : (c.resolve σ d session).result = .ok spec)
    (hkeyed : (c.scope d).KeyedOnLeaves) {s t : Ty} (hs : s.isContainer = false)
    (ht : t.isContainer = false) (W : Wrapper) :
    (∀ find, c.Searches d find →
      find (W.ty s) (W.ty t) = (find s t).map fun leaf => W.lift s t leaf) ∧
    (∀ plan ∈ spec.members, ∀ a conversion sentinel,
      plan.production = .read a conversion sentinel →
      a.type = W.ty s → plan.type = W.ty t →
      ∃ find leaf, c.Searches d find ∧ find s t = some leaf ∧ conversion = W.lift s t leaf ∧
        ∀ (K : ω → Prop) (nest : Nesting ω) (parameter handedOn : Option Value)
          (source raw : Value) (start ready : Assembly ω) (call : Call ω),
          (∀ p ∈ leaf.pairings, Nesting.Sound σ K nest p) →
          ParameterWellFormed σ parameter → ParameterWellFormed σ handedOn →
          (Assembly.onCall (Condition.allHold σ parameter source plan.conditions)).run start =
            (.ok true, ready) →
          a.Obtains σ parameter spec.source source ready.destination ready.call raw call →
          raw.HasType σ (W.ty s) → call.WellFormed σ K →
          let each := leaf.run σ parameter handedOn nest
          let result := (plan.assign σ parameter handedOn nest spec.source source).run start
          (∀ e final, result = (.error e, final) ↔
            ∃ before u after outs mid call', W.leaves raw = before ++ u :: after ∧
              (before.mapM each).run call = (.ok outs, mid) ∧
              (each u).run mid = (.error e, call') ∧ final = { ready with call := call' }) ∧
          (∀ final, result = (.ok (), final) → ∃ w outs call',
            ((W.leaves raw).mapM each).run call = (.ok outs, call') ∧
              W.Carries σ t leaf raw w outs ∧
              final = { destination := ready.destination.setMember plan.declaration w,
                        call := call' })) ∧
    (∀ v, v.HasType σ (W.ty s) → W.leaves (W.collapse v) = W.leaves v ∧
      (W.outline (W.collapse v) = W.outline v ↔ W.hollow v = false)) := by
  have hspec := Config.resolved_of_ok hresolved
  have hsearches : ∀ find, c.Searches d find →
      find (W.ty s) (W.ty t) = (find s t).map fun leaf => W.lift s t leaf :=
    fun find hfind => hfind.wrapped hkeyed hs ht W
  refine ⟨hsearches, ?_, ?_⟩
  · intro plan hplan a conversion sentinel hread hsource htarget
    obtain ⟨find, hfind, hfound⟩ := (hspec.read hplan hread).1.searched
    rw [hsource, htarget, hsearches find hfind] at hfound
    obtain ⟨leaf, hleaf, rfl⟩ := Option.map_eq_some_iff.mp hfound
    refine ⟨find, leaf, hfind, hleaf, rfl, ?_⟩
    intro K nest parameter handedOn source raw start ready call hnest hp hh hconditions hobtains
      hraw hcall each result
    have hjoins := hfind.joins (hc.scope hd).satisfies hleaf
    obtain ⟨call', ⟨e, hleaves, hassign⟩ | ⟨outs, w, hleaves, hcarries, hassign⟩⟩ :=
      hspec.run_assign_lift hplan hread hjoins htarget hs ht hnest hp hh hconditions hobtains hraw
        hcall
    · have hresult : result = _ := hassign
      rw [hresult]
      refine ⟨fun e' final => ⟨?_, ?_⟩, fun final h => nomatch h⟩
      · rintro ⟨⟩
        obtain ⟨before, u, after, bs, mid, hsplit, hbefore, hu⟩ := Run.mapM_error_iff.mp hleaves
        exact ⟨before, u, after, bs, mid, call', hsplit, hbefore, hu, rfl⟩
      · rintro ⟨before, u, after, bs, mid, last, hsplit, hbefore, hu, rfl⟩
        have hfirst := Run.mapM_error_iff.mpr ⟨before, u, after, bs, mid, hsplit, hbefore, hu⟩
        rw [hleaves] at hfirst
        cases hfirst
        rfl
    · have hresult : result = _ := hassign
      rw [hresult]
      refine ⟨fun e' final => ⟨fun h => (nomatch h), ?_⟩, ?_⟩
      · rintro ⟨before, u, after, bs, mid, last, hsplit, hbefore, hu, -⟩
        have hfirst := Run.mapM_error_iff.mpr ⟨before, u, after, bs, mid, hsplit, hbefore, hu⟩
        rw [hleaves] at hfirst
        cases hfirst
      · rintro final ⟨⟩
        exact ⟨w, outs, call', hleaves, hcarries, rfl⟩
  · intro v hv
    exact ⟨Wrapper.leaves_collapse hs hv, Wrapper.outline_collapse_iff hv⟩

/-- **A reading that is there but empty** is displayed as none at all: the option that
holds an empty option is assigned as an empty option. -/
theorem structure_lost_hollow :
    let raw : Value := .present (.absent (.prim (.int .i32)))
    let shown : Value := .absent (.option (.prim .text))
    let start : Assembly Unit :=
      { destination := .record "Display" [.absent (.option (.prim .text))],
        call := { trail := { outside := () } } }
    (gaugeDisplay.scope {}).KeyedOnLeaves ∧
      (gaugeDisplay.resolve gaugeSchema {} { pair := "" }).result =
        .ok { source := "Gauge", destination := "Display", members := [readingPlan] } ∧
      raw.HasType gaugeSchema (twofold.ty (.prim (.int .i32))) ∧
      (readingPlan.assign gaugeSchema none none Conversion.unreachable "Gauge"
        (.record "Gauge" [raw])).run start =
        (.ok (), { start with destination := start.destination.setMember 0 shown }) ∧
      twofold.outline shown ≠ twofold.outline raw := by
  intro raw shown start
  exact ⟨keyedOnLeaves_gaugeDisplay, resolve_gaugeDisplay "", .present (.absent _), rfl, nofun⟩

/-- A reading that is there is displayed in the structure it has. -/
theorem structure_kept_reading :
    let raw : Value := .present (.present (.int .i32 5))
    let start : Assembly Unit :=
      { destination := .record "Display" [.absent (.option (.prim .text))],
        call := { trail := { outside := () } } }
    gaugeDisplay.Sound gaugeSchema ∧ (gaugeDisplay.scope {}).KeyedOnLeaves ∧
      raw.HasType gaugeSchema (twofold.ty (.prim (.int .i32))) ∧ twofold.hollow raw = false ∧
      ∃ w call', (readingPlan.assign gaugeSchema none none Conversion.unreachable "Gauge"
        (.record "Gauge" [raw])).run start =
          (.ok (), { destination := start.destination.setMember 0 w, call := call' }) ∧
        twofold.outline w = twofold.outline raw := by
  intro raw start
  have hraw : raw.HasType gaugeSchema (twofold.ty (.prim (.int .i32))) :=
    .present (.present (.int (by decide)))
  have h := structure_kept (ω := Unit) sound_gaugeDisplay (Defaults.sound_empty gaugeSchema)
    (resolve_gaugeDisplay "") keyedOnLeaves_gaugeDisplay (s := .prim (.int .i32))
    (t := .prim .text) rfl rfl twofold
  obtain ⟨find, leaf, hfind, hleaf, hlift, hassign⟩ :=
    h.2.1 readingPlan (List.mem_singleton.mpr rfl) _ _ _ rfl rfl rfl
  have hprimitive : leaf = .primitive (.int .i32) .text := by
    rcases hfind with rfl | ⟨profile, rfl⟩
    · rw [resolve_reading] at hleaf
      cases hleaf
      rfl
    · unfold Scope.nesting at hleaf
      cases hleaf
  subst hprimitive
  obtain ⟨-, hok⟩ := hassign (fun _ => True) Conversion.unreachable none none
    (.record "Gauge" [raw]) raw start start start.call (fun _ hp => nomatch hp)
    (fun _ hp => nomatch hp) (fun _ hp => nomatch hp) rfl ⟨rfl, rfl⟩ hraw
    ⟨Scratch.wellFormed_empty gaugeSchema, trivial⟩
  have hrun : (readingPlan.assign gaugeSchema none none Conversion.unreachable "Gauge"
      (.record "Gauge" [raw])).run start =
      (.ok (), { start with
        destination := .record "Display" [.present (.present (.text "5"))] }) := rfl
  obtain ⟨w, outs, call', -, hcarries, hfinal⟩ := hok _ hrun
  refine ⟨sound_gaugeDisplay, keyedOnLeaves_gaugeDisplay, hraw, rfl, w, call', ?_, ?_⟩
  · rw [hrun, hfinal]
    rfl
  · rw [hcarries.outline]
    exact (h.2.2 raw hraw).2.mpr rfl

end RecordMap
