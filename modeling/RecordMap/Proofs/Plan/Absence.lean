import RecordMap.Mapper
import RecordMap.Proofs.Conversion.Absence
import RecordMap.Proofs.Plan.Resolve

/-!
# Absent values

A member that is read can come out absent while the mapping runs: an option on
its path is empty, or the conversion has to open an empty one.  Whether that can
happen is decided when the mapping is resolved, from the types alone, and it is
then that the sentinel for the case is looked up.

The two fit together.  An absent value arises only where the plan is flagged for
it or the member is an option, so the sentinel is always there when it is needed
(`Config.Resolved.replaces_of_absent`), and a value that is present is never
replaced.
-/

namespace RecordMap

variable {ω : Type} {σ : Schema} {c : Config} {d : Defaults} {spec : Specification}
  {plan : MemberPlan} {parameter handedOn : Option Value} {nest : Nesting ω} {source : Value}

/-! ## §1. How a value comes to be absent -/

/-- **The source value is lacking**: an option on the path is empty, or the
conversion meets an empty one in what was read. -/
def Accessor.LacksOn (σ : Schema) (parameter : Option Value) (recordName : String)
    (source destination : Value) (call : Call ω) (conversion : Conversion) : Accessor → Prop
  | path p => p.BreaksOn σ recordName source ∨
      ∃ raw, p.read? σ recordName source = some raw ∧ conversion.MeetsEmpty raw
  | provider p => ∃ raw call',
      (p.provide σ parameter source destination).run call = (.ok raw, call') ∧
        conversion.MeetsEmpty raw

/-- What is read comes out absent exactly when the source value is lacking. -/
theorem Accessor.read_eq_none_iff {P : Converter → Prop} {a : Accessor} {conversion : Conversion}
    {t : Ty} {recordName : String} {destination : Value} {call : Call ω}
    (hjoins : conversion.Joins P a.type t) (hsource : source.HasType σ (.record recordName))
    (hleads : ∀ p, a = .path p → p.Leads σ recordName) :
    ((a.read σ parameter handedOn nest recordName source destination conversion).run call).1 =
        .ok none ↔ a.LacksOn σ parameter recordName source destination call conversion := by
  cases a with
  | path p =>
    -- Either the path reads nothing, or the conversion gives nothing for what it reads.
    have hbreaks := (hleads p rfl).read?_eq_none_iff hsource
    rw [Accessor.read]
    cases hraw : p.read? σ recordName source with
    | none => exact ⟨fun _ => .inl (hbreaks.mp hraw), fun _ => rfl⟩
    | some raw =>
      refine (hjoins.run_eq_none_iff call).trans ?_
      constructor
      · intro hmeets
        exact .inr ⟨raw, hraw, hmeets⟩
      · rintro (hbroken | ⟨raw', hraw', hmeets⟩)
        · rw [hbreaks.mpr hbroken] at hraw
          cases hraw
        · rw [hraw] at hraw'
          cases hraw'
          exact hmeets
  | provider p =>
    unfold Accessor.read
    constructor
    · intro h
      obtain ⟨raw, call', hraw, h⟩ := Run.bind_ok (Prod.ext h rfl)
      exact ⟨raw, call', hraw, (hjoins.run_eq_none_iff call').mp (by rw [h])⟩
    · rintro ⟨raw, call', hraw, hmeets⟩
      rw [Run.run_bind_ok hraw]
      exact (hjoins.run_eq_none_iff call').mpr hmeets

/-- A lacking value comes from an option: on the path, or as the source type. -/
theorem Accessor.mayLack_of_lacksOn {P : Converter → Prop} {a : Accessor} {conversion : Conversion}
    {t : Ty} {recordName : String} {destination : Value} {call : Call ω}
    (hjoins : conversion.Joins P a.type t)
    (h : a.LacksOn σ parameter recordName source destination call conversion) :
    (∃ p, a = .path p ∧ p.mayBreak = true) ∨ a.type.isNullable = true := by
  cases a with
  | path p =>
    rcases h with hbreaks | ⟨_, _, hmeets⟩
    · exact .inl ⟨p, rfl, Path.mayBreak_of_breaksOn hbreaks⟩
    · exact .inr (hjoins.isNullable_of_meetsEmpty hmeets)
  | provider p =>
    obtain ⟨_, _, _, hmeets⟩ := h
    exact .inr (hjoins.isNullable_of_meetsEmpty hmeets)

theorem Config.needsSentinel_iff {a : Accessor} {t : Ty} :
    Config.needsSentinel a t = true ↔
      t.isNullable = false ∧ ((∃ p, a = .path p ∧ p.mayBreak = true) ∨ a.type.isNullable = true) := by
  cases a with
  | path p => simp [Config.needsSentinel, Accessor.type]
  | provider p => simp [Config.needsSentinel, Accessor.type]

/-- A plan is flagged where its source can be lacking, unless its member is an
option. -/
theorem MemberPlan.flagged_of_mayLack {m : MemberPlan} {a : Accessor} {conversion : Conversion}
    {sentinel : Option Value} (hread : m.production = .read a conversion sentinel)
    (h : (∃ p, a = .path p ∧ p.mayBreak = true) ∨ a.type.isNullable = true) :
    m.type.isNullable = true ∨ m.nullCheck = true ∨ m.nullCoalescing = true := by
  rcases h with ⟨p, rfl, hbreak⟩ | hnullable
  · refine .inr (.inl ?_)
    unfold nullCheck
    rw [hread]
    exact hbreak
  · cases hmember : m.type.isNullable with
    | true => exact .inl rfl
    | false =>
      refine .inr (.inr ?_)
      unfold nullCoalescing
      rw [hread]
      simp [Production.accessor?, hnullable, hmember]

/-! ## §2. What an absent value is replaced by -/

/-- **The value for an absent member**: absence itself if the member is an option,
else the fitted value of the first sentinel configured, else zero. -/
inductive Config.Replaces (σ : Schema) (c : Config) (d : Defaults) (plan : MemberPlan) :
    Value → Prop where
  | absence {t : Ty} (nullable : plan.type = .option t) : Replaces σ c d plan (.absent t)
  | sentinel {v w : Value} (required : plan.type.isNullable = false)
      (first : ((c.member? plan.member).bind (·.sentinel)).or
        ((c.sentinels.get? plan.type).or (d.sentinels.get? plan.type)) = some v)
      (fits : c.Fits σ d plan.type v w) : Replaces σ c d plan w
  | zero (required : plan.type.isNullable = false)
      (lacking : ((c.member? plan.member).bind (·.sentinel)).or
        ((c.sentinels.get? plan.type).or (d.sentinels.get? plan.type)) = none) :
      Replaces σ c d plan (Value.zero σ plan.type)

theorem Config.Fits.type_eq {type : Ty} {v w : Value} (h : c.Fits σ d type v w) : w.type = type := by
  cases h with
  | same typed => exact typed
  | converted _ _ _ _ typed => exact typed

theorem Config.Replaces.type_eq {w : Value} (h : c.Replaces σ d plan w) : w.type = plan.type := by
  cases h with
  | absence nullable => rw [nullable]; rfl
  | sentinel _ _ fits => exact fits.type_eq
  | zero _ _ => exact Value.type_zero σ plan.type

/-- The plan of a read member in a resolved specification. -/
theorem Config.Resolved.read (h : c.Resolved σ d spec) (hplan : plan ∈ spec.members)
    {a : Accessor} {conversion : Conversion} {sentinel : Option Value}
    (hread : plan.production = .read a conversion sentinel) :
    c.Sourced σ d plan.member plan.type (c.origin? plan.member) a conversion ∧
      c.Guarded σ d (c.member? plan.member) plan.type a sentinel := by
  obtain ⟨f, _, hplans⟩ := h.plans hplan
  have hproduction := hplans.production
  rw [hread, ← hplans.member, ← hplans.type] at hproduction
  cases hproduction with
  | read sourced guarded => exact ⟨sourced, guarded⟩

/-- **The sentinel is there when it is needed.**  Where the source can be lacking,
sentinel and zero make up the value for an absent member. -/
theorem Config.Resolved.replaces_of_absent (h : c.Resolved σ d spec) (hplan : plan ∈ spec.members)
    {a : Accessor} {conversion : Conversion} {sentinel : Option Value}
    (hread : plan.production = .read a conversion sentinel)
    (hlack : (∃ p, a = .path p ∧ p.mayBreak = true) ∨ a.type.isNullable = true) :
    c.Replaces σ d plan (sentinel.getD (Value.zero σ plan.type)) := by
  have hguarded := (h.read hplan hread).2
  have hneeds := Config.needsSentinel_iff (a := a) (t := plan.type)
  cases hnull : plan.type.isNullable with
  | true =>
    cases hguarded with
    | sentinel needed _ _ =>
      -- An option is never given a sentinel.
      have := (hneeds.mp needed).1
      rw [hnull] at this
      cases this
    | unguarded _ =>
      cases htype : plan.type with
      | option t => exact .absence htype
      | _ => rw [htype] at hnull; cases hnull
  | false =>
    cases hguarded with
    | sentinel _ first fits => exact .sentinel hnull first fits
    | unguarded lacking => exact .zero hnull (lacking (hneeds.mpr ⟨hnull, hlack⟩))

/-! ## §3. Assignment -/

/-- The end of an assignment: the member holds the value, if it is of the type of
the member. -/
def MemberPlan.settled (σ : Schema) (m : MemberPlan) (destination : Value) (call : Call ω)
    (w : Value) : Except MapError Unit × Assembly ω :=
  if w.type = m.type then (.ok (), { destination := destination.setMember m.declaration w, call })
  else (.error (.typeMismatch (σ.name m.type)), { destination, call })

theorem MemberPlan.settled_of_type {m : MemberPlan} {destination w : Value} {call : Call ω}
    (h : w.type = m.type) :
    m.settled σ destination call w =
      (.ok (), { destination := destination.setMember m.declaration w, call }) := by
  unfold settled
  rw [if_pos h]

/-- A member whose conditions hold is assigned its value. -/
theorem MemberPlan.run_assign {m : MemberPlan} {recordName : String} {start ready : Assembly ω}
    {call : Call ω} {w : Value}
    (hconditions : (Assembly.onCall (Condition.allHold σ parameter source m.conditions)).run start =
      (.ok true, ready))
    (hvalue : (m.value σ parameter handedOn nest recordName source ready.destination).run ready.call =
      (.ok w, call)) :
    (m.assign σ parameter handedOn nest recordName source).run start =
      m.settled σ ready.destination call w := by
  -- Conditions, value, check and update, in the order of the program.
  unfold MemberPlan.assign
  rw [Run.run_bind_ok hconditions]
  have hstep : (Assembly.onCall (m.value σ parameter handedOn nest recordName source
      ready.destination)).run ready = (.ok w, { ready with call }) := by
    unfold Assembly.onCall
    rw [Run.run_zoom, hvalue]
  show (get >>= _ : Run (Assembly ω) Unit).run ready = _
  rw [Run.run_bind_ok (Run.run_get ready), Run.run_bind_ok hstep]
  unfold MemberPlan.settled Value.assign?
  split
  · rfl
  · rfl

/-- The value of a read member: what was read, or its replacement. -/
theorem MemberPlan.run_value {m : MemberPlan} {recordName : String} {destination : Value}
    {call call' : Call ω} {a : Accessor} {conversion : Conversion} {sentinel r : Option Value}
    (hread : m.production = .read a conversion sentinel)
    (hrun : (a.read σ parameter handedOn nest recordName source destination conversion).run call =
      (.ok r, call')) :
    (m.value σ parameter handedOn nest recordName source destination).run call =
      (.ok (r.getD (sentinel.getD (Value.zero σ m.type))), call') := by
  unfold MemberPlan.value
  rw [hread]
  exact Run.run_bind_ok hrun

/-! ## §4. Notes and their views -/

/-- Notes, whose label may be absent, and views of them, whose label may not; pages
of notes, and sheets of views. -/
def noteSchema : Schema where
  naming := ⟨"Text", "Option", "List"⟩
  record
    | "Note" => { fields := [{ name := "label", type := .option (.prim .text) }] }
    | "View" => { fields := [{ name := "label", type := .prim .text }] }
    | "Page" => { fields := [{ name := "notes", type := .seq (.record "Note") }] }
    | "Sheet" => { fields := [{ name := "notes", type := .seq (.record "View") }] }
    | _ => {}
  enum _ := { first := { name := "", underlying := 0 } }
  rank _ := 0
  contains_lt := by
    rintro r r' ⟨f, hf, ht⟩
    split at hf <;> simp at hf <;> simp [hf] at ht

/-- Views of notes, with a sentinel for the label. -/
def noteView : Config where
  source := "Note"
  destination := "View"
  members := [{ name := "label", sentinel := some (.text "none") }]

/-- The plan of the label. -/
def labelPlan : MemberPlan where
  member := "label"
  type := .prim .text
  declaration := 0
  strategy := .guardedBySentinel
  production := .read
    (.path { head := 0, terminal := .option (.prim .text), names := ["label"] })
    (.unwrap (.prim .text) (.passThrough (.prim .text))) (some (.text "none"))

theorem verdicts_noteView : noteView.verdicts noteSchema {} = [(.planned labelPlan, {})] := by
  with_unfolding_all rfl

theorem resolve_noteView (name : String) :
    (noteView.resolve noteSchema {} { pair := name }).result =
      .ok { source := "Note", destination := "View", members := [labelPlan] } := by
  unfold Config.resolve
  rw [verdicts_noteView]
  with_unfolding_all rfl

theorem hasType_note :
    (Value.record "Note" [.absent (.prim .text)]).HasType noteSchema (.record "Note") := by
  refine .record rfl ?_
  intro i v f hv hf
  cases i with
  | zero =>
    cases hv
    cases hf
    exact .absent _
  | succ i => cases hv

/-! ## §5. The member as a whole -/

/-- **Absence is handled completely and exactly**, for every planned member that
reads the source.  What is read comes out absent just where the source value is
lacking, and then the plan is flagged for it or the member is an option.  An
absent value is replaced by absence, the first sentinel or zero; one that is
present is assigned as it is.  In sequences an absent element is the zero of its
type, in its place. -/
theorem absence_handled {session : Session}
    (hresolved : (c.resolve σ d session).result = .ok spec) (hplan : plan ∈ spec.members)
    {a : Accessor} {conversion : Conversion} {sentinel : Option Value}
    (hread : plan.production = .read a conversion sentinel)
    (hsource : source.HasType σ (.record spec.source)) (parameter handedOn : Option Value)
    (nest : Nesting ω) :
    (∀ (destination : Value) (call : Call ω),
      (((a.read σ parameter handedOn nest spec.source source destination conversion).run call).1 =
          .ok none ↔ a.LacksOn σ parameter spec.source source destination call conversion) ∧
      (((a.read σ parameter handedOn nest spec.source source destination conversion).run call).1 =
          .ok none →
        plan.type.isNullable = true ∨ plan.nullCheck = true ∨ plan.nullCoalescing = true)) ∧
    (∀ (start ready : Assembly ω) (call : Call ω) (r : Option Value),
      (Assembly.onCall (Condition.allHold σ parameter source plan.conditions)).run start =
        (.ok true, ready) →
      (a.read σ parameter handedOn nest spec.source source ready.destination conversion).run
        ready.call = (.ok r, call) →
      (r = none → ∃ w, c.Replaces σ d plan w ∧
        (plan.assign σ parameter handedOn nest spec.source source).run start =
          (.ok (), { destination := ready.destination.setMember plan.declaration w, call })) ∧
      (∀ w, r = some w →
        (plan.assign σ parameter handedOn nest spec.source source).run start =
          plan.settled σ ready.destination call w)) ∧
    (∀ (s t : Ty) (next : Conversion) (v : Value) (out : Option Value) (call call' : Call ω),
      ((Conversion.elements s t next).run σ parameter handedOn nest v).run call = (.ok out, call') →
      ∃ items results, v.items? s = some items ∧
        (items.mapM (next.run σ parameter handedOn nest)).run call = (.ok results, call') ∧
        results.length = items.length ∧
        out = some (.seq t (results.map (·.getD (Value.zero σ t))))) := by
  have hspec := Config.resolved_of_ok hresolved
  have hsourced := (hspec.read hplan hread).1
  have hjoins : conversion.Joins (fun _ => True) a.type plan.type :=
    hsourced.joins fun _ _ _ _ => trivial
  have hleads : ∀ p, a = .path p → p.Leads σ spec.source := by
    rintro p rfl
    rw [hspec.source]
    exact hsourced.leads
  have hlacks : ∀ (destination : Value) (call : Call ω),
      ((a.read σ parameter handedOn nest spec.source source destination conversion).run call).1 =
        .ok none ↔ a.LacksOn σ parameter spec.source source destination call conversion :=
    fun _ _ => Accessor.read_eq_none_iff hjoins hsource hleads
  refine ⟨?_, ?_, ?_⟩
  · intro destination call
    refine ⟨hlacks destination call, ?_⟩
    intro hnone
    have hmay := Accessor.mayLack_of_lacksOn hjoins ((hlacks destination call).mp hnone)
    exact plan.flagged_of_mayLack hread hmay
  · intro start ready call r hconditions hrun
    have hassign := MemberPlan.run_assign hconditions (MemberPlan.run_value hread hrun)
    refine ⟨?_, ?_⟩
    -- Absent: the plan has been given the value for this case.
    · rintro rfl
      have hmay := Accessor.mayLack_of_lacksOn hjoins
        ((hlacks ready.destination ready.call).mp (by rw [hrun]))
      have hreplaces := hspec.replaces_of_absent hplan hread hmay
      exact ⟨_, hreplaces, hassign.trans (MemberPlan.settled_of_type hreplaces.type_eq)⟩
    -- Present: the sentinel is not looked at.
    · rintro w rfl
      exact hassign
  · intro s t next v out call call' h
    exact Conversion.run_elements_ok h

/-- An absent label is assigned its sentinel. -/
theorem absence_handled_label :
    let note : Value := .record "Note" [.absent (.prim .text)]
    let start : Assembly Unit :=
      { destination := .record "View" [.text ""], call := { trail := { outside := () } } }
    (noteView.resolve noteSchema {} { pair := "" }).result =
        .ok { source := "Note", destination := "View", members := [labelPlan] } ∧
      note.HasType noteSchema (.record "Note") ∧
      ∃ w, noteView.Replaces noteSchema {} labelPlan w ∧
        (labelPlan.assign noteSchema none none Conversion.unreachable "Note" note).run start =
          (.ok (), { start with destination := start.destination.setMember 0 w }) := by
  intro note start
  have h := absence_handled (resolve_noteView "") (List.mem_singleton.mpr rfl) rfl hasType_note none
    none (Conversion.unreachable : Nesting Unit)
  exact ⟨resolve_noteView "", hasType_note, (h.2.1 start start start.call none rfl rfl).1 rfl⟩

end RecordMap
