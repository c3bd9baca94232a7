import RecordMap.Proofs.Conversion.Detached
import RecordMap.Proofs.Conversion.Wrapper
import RecordMap.Proofs.Mapper.Turn
import RecordMap.Proofs.Plan.Absence
import RecordMap.Proofs.Plan.Fitting
import RecordMap.Proofs.Plan.Independent

/-!
# Constants and values that are read

A constant is converted to the type of its member once, when the mapping is resolved; a value that
is read is converted in every call.  Through a detached conversion the two agree
(`Config.constant_agrees`): the member is assigned the same value, or there is none for either.
They part in one case.  A value that comes out absent is replaced where it is read, by the zero of
the member's type, and is a problem where it is a constant, even if the member is an option.
-/

namespace RecordMap

variable {ω : Type} {σ : Schema}

/-! ## §1. What a member receives -/

/-- **What a member receives** of a converted value in a call: the value, which has to be of its
type, or the zero of the type where there is none. -/
def received (σ : Schema) (type : Ty) : Except MapError (Option Value) → Except MapError Value
  | .error e => .error e
  | .ok o =>
      match (o.getD (Value.zero σ type)).as? type with
      | some w => .ok w
      | none => .error (.typeMismatch (σ.name type))

section Received

variable {type : Ty} {w : Value} {result : Except MapError (Option Value)}

@[simp] theorem received_none : received σ type (.ok none) = .ok (Value.zero σ type) := by
  unfold received
  simp [Value.as?]

/-- **A value that fits** is received, and is there. -/
theorem fitted_eq_ok_iff :
    fitted σ type result = .ok w ↔ received σ type result = .ok w ∧ result ≠ .ok none := by
  rcases result with e | (_ | out)
  · simp [fitted, received]
  · simp [fitted]
  · simp only [fitted, received, Option.getD_some]
    cases out.as? type <;> simp

/-- **A value that does not fit** is not received, or is not there. -/
theorem fitted_eq_error_iff :
    (∃ reason, fitted σ type result = .error reason) ↔
      (∃ e, received σ type result = .error e) ∨ result = .ok none := by
  rcases result with e | (_ | out)
  · simp [fitted, received]
  · simp [fitted]
  · simp only [fitted, received, Option.getD_some]
    cases out.as? type <;> simp

end Received

/-! ## §2. Turns on an occasion -/

/-- **An occasion** for the turn of a member: what the call was made with, and what it has come
to. -/
structure Occasion (ω : Type) where
  parameter : Option Value
  handedOn : Option Value
  nest : Nesting ω
  source : Value
  destination : Value
  call : Call ω

/-- The conditions hold on the occasion. -/
def Occasion.Meets (σ : Schema) (o : Occasion ω) (conditions : List Condition) : Prop :=
  ∃ call, (Condition.allHold σ o.parameter o.source conditions).run o.call = (.ok true, call)

namespace MemberPlan

variable {m : MemberPlan} {o : Occasion ω} {recordName : String}

/-- What comes of the turn of a member on the occasion. -/
def outcome (σ : Schema) (recordName : String) (m : MemberPlan) (o : Occasion ω) :
    Except MapError (Option Value) :=
  ((m.turn σ o.parameter o.handedOn o.nest recordName o.source o.destination).run o.call).1

theorem outcome_constant (hmeets : o.Meets σ m.conditions) {w : Value}
    (hconstant : m.production = .constant w) (htype : w.type = m.type) :
    m.outcome σ recordName o = .ok (some w) := by
  obtain ⟨call, hholds⟩ := hmeets
  unfold outcome turn value
  rw [Run.run_bind_ok hholds, if_pos rfl, hconstant, pure_bind, ← htype, Value.as?_type]
  rfl

/-- **The turn of a member that is read** through a detached conversion. -/
theorem outcome_read (hmeets : o.Meets σ m.conditions) {p : Path} {k : Conversion}
    (hread : m.production = .read (.path p) k none) (hdetached : k.Detached) {v : Value}
    (hheld : p.read? σ recordName o.source = some v) :
    m.outcome σ recordName o = some <$> received σ m.type (k.evaluate σ v).1 := by
  obtain ⟨call, hholds⟩ := hmeets
  have hsame : ((k.run σ o.parameter o.handedOn o.nest v).run call).1 = (k.evaluate σ v).1 :=
    hdetached.run_eq v call
  have hraw : (Accessor.path p).read σ o.parameter o.handedOn o.nest recordName o.source
      o.destination k = k.run σ o.parameter o.handedOn o.nest v := by
    rw [Accessor.read, hheld]
  unfold outcome turn value
  rw [Run.run_bind_ok hholds, if_pos rfl, hread]
  dsimp only
  rw [hraw, bind_assoc, Run.run_bind, ← hsame]
  rcases (k.run σ o.parameter o.handedOn o.nest v).run call with ⟨e | converted, call'⟩
  · rfl
  · dsimp only
    rw [pure_bind, Option.getD_none]
    unfold received
    dsimp only
    cases (converted.getD (Value.zero σ m.type)).as? m.type with
    | none => rfl
    | some w => rfl

end MemberPlan

namespace Config

variable {c c' : Config} {d : Defaults} {f : RecordMap.Field} {v w : Value} {p : Path}
  {session : Session}

/-! ## §3. A constant that is declared -/

/-- **The member is declared constant**: it is not ignored, and the value is its one source. -/
structure Declares (c : Config) (member : String) (v : Value) : Prop where
  heeded : c.ignores member = false
  origins : c.origins member = [.constant v]

/-- What is fitted without a nested mapper. -/
theorem fitting_of_detached {type : Ty}
    (hdetached : ∀ k, (c.scope d).resolve v.type type = some k → k.Detached) :
    (c.fitting σ d type v).1 =
      match (c.scope d).resolve v.type type with
      | none => .error ("no conversion from " ++ σ.name v.type ++ " to " ++ σ.name type)
      | some k => fitted σ type (k.evaluate σ v).1 := by
  unfold fitting
  by_cases htype : v.type = type
  · subst htype
    rw [if_pos rfl, Scope.resolve_self]
    have hcopied : ((Conversion.passThrough v.type).evaluate σ v).1 = .ok (some v) := by
      unfold Conversion.evaluate
      rw [Conversion.run, Value.as?_type]
      rfl
    dsimp only
    rw [hcopied, fitted, Value.as?_type]
  · rw [if_neg htype]
    cases hresolve : (c.scope d).resolve v.type type with
    | none => rfl
    | some k =>
      have hflat : ¬ k.isNested = true := by
        rw [(hdetached k hresolve).isNested_eq_false]
        exact Bool.false_ne_true
      dsimp only
      rw [if_neg hflat]

namespace Declares

variable (h : c.Declares f.name v)

include h

theorem heeds : c.Heeds f.name where
  heeded := h.heeded
  single := by simp [h.origins]

theorem constant?_eq (type : Ty) : c.constant? d (c.origin? f.name) type = some v := by
  have horigin : c.origin? f.name = some (.constant v) := congrArg List.head? h.origins
  unfold constant?
  rw [horigin]

/-- **The constants the member is planned with** are those the value is fitted to. -/
theorem planned_iff {i : Nat} :
    (∃ plan, (c.fateOf σ d i f).1 = .planned plan ∧ plan.production = .constant w) ↔
      (c.fitting σ d f.type v).1 = .ok w := by
  obtain ⟨hfits, hmisfits⟩ := fateOf_constant (σ := σ) (d := d) h.heeds (h.constant?_eq f.type) i
  cases hfitting : (c.fitting σ d f.type v).1 with
  | ok out =>
    rw [(hfits out hfitting).1]
    constructor
    · rintro ⟨plan, hplan, hconstant⟩
      cases hplan
      cases hconstant
      rfl
    · rintro ⟨⟩
      exact ⟨_, rfl, rfl⟩
  | error reason =>
    rw [(hmisfits reason hfitting).1]
    exact ⟨nofun, nofun⟩

/-- **The value is reported** just if it is not fitted. -/
theorem reported_iff {i : Nat} (hone : c.targetsNamed σ f.name = [(f, i)])
    (hfresh : session.diagnostics = []) :
    (∃ reason, .constantConversion f.name reason ∈ (c.resolve σ d session).diagnostics) ↔
      ∃ reason, (c.fitting σ d f.type v).1 = .error reason := by
  have hsearched : ∀ reason m, c.problem? σ m ≠ some (.constantConversion f.name reason) := by
    intro reason m hm
    rcases problem?_cases hm with h | h
    · cases h
    · cases h
  have hfound : ∀ reason, .constantConversion f.name reason ∈ (c.resolve σ d session).diagnostics ↔
      .constantConversion f.name reason ∈ (c.fateOf σ d i f).2.problems := by
    intro reason
    rw [found_iff hfresh rfl (hsearched reason), hone]
    simp
  obtain ⟨hfits, hmisfits⟩ := fateOf_constant (σ := σ) (d := d) h.heeds (h.constant?_eq f.type) i
  simp only [hfound]
  cases hfitting : (c.fitting σ d f.type v).1 with
  | ok out =>
    rw [(hfits out hfitting).2]
    simp
  | error reason =>
    rw [(hmisfits reason hfitting).2]
    simp

end Declares

/-! ## §4. A member that is read -/

/-- **The member is read along a path**, its own or the one found for its name, and without a
sentinel: it is not ignored, and neither it nor its type has a constant. -/
structure ReadsAlong (σ : Schema) (c : Config) (d : Defaults) (f : RecordMap.Field) (p : Path) :
    Prop where
  heeds : c.Heeds f.name
  unset : c.constant? d (c.origin? f.name) f.type = none
  source : (∃ text, c.origin? f.name = some (.path text) ∧
      Path.parse? σ c.source text = some p) ∨
    c.origin? f.name = none ∧ (namedPath? σ c d f.name).or
      (Path.flatten? σ c.source f.name (c.nameMatcher d)) = some p
  unguarded : c.sentinel? d (c.member? f.name) f.type = none

namespace ReadsAlong

variable (h : c.ReadsAlong σ d f p) (i : Nat)

include h

theorem source?_eq : c.source? σ d f.name f.type (c.origin? f.name) =
    ((c.scope d).resolve p.terminal f.type).map fun k => (.path p, k) := by
  rcases h.source with ⟨text, horigin, hp⟩ | ⟨horigin, hp⟩
  · rw [horigin, source?, hp, Option.map_eq_bind]
    rfl
  · rw [horigin]
    unfold source?
    dsimp only
    rw [hp, Option.map_eq_bind]
    rfl

theorem fateOf_of_resolve {k : Conversion}
    (hresolve : (c.scope d).resolve p.terminal f.type = some k) (hdetached : k.Detached) :
    (c.fateOf σ d i f).1 =
      .planned (c.plan i f (readStrategy k none, .read (.path p) k none)) := by
  have hsource := h.source?_eq
  rw [hresolve] at hsource
  refine fateOf_sourced h.heeds h.unset hsource ?_ h.unguarded i
  rw [hdetached.flat]
  exact List.not_mem_nil

theorem not_planned (hresolve : (c.scope d).resolve p.terminal f.type = none) (plan : MemberPlan) :
    (c.fateOf σ d i f).1 ≠ .planned plan := by
  have hsource := h.source?_eq
  rw [hresolve] at hsource
  exact not_planned_of_unsourced h.unset hsource i plan

end ReadsAlong

/-! ## §5. Agreement -/

/-- **The mapping always assigns the value** to the member: it has a plan, which is the one in every
specification the mapping resolves to, and whenever its conditions hold the turn gives the
value. -/
def AlwaysAssigns (σ : Schema) (c : Config) (d : Defaults) (f : RecordMap.Field) (i : Nat)
    (w : Value) : Prop :=
  ∃ plan, (c.fateOf σ d i f).1 = .planned plan ∧ plan.production = .constant w ∧
    (∀ session spec, (c.resolve σ d session).result = .ok spec → plan ∈ spec.members) ∧
    ∀ (ω : Type) (o : Occasion ω), o.Meets σ plan.conditions →
      plan.outcome σ c.source o = .ok (some w)

/-- The member has a plan, and its turn on the occasion comes to that. -/
def ComesTo (σ : Schema) (c : Config) (d : Defaults) (f : RecordMap.Field) (i : Nat)
    (o : Occasion ω) (result : Except MapError (Option Value)) : Prop :=
  ∃ plan, (c.fateOf σ d i f).1 = .planned plan ∧ plan.outcome σ c.source o = result

/-- **The value comes out absent**: its conversion to the type has to open an empty option. -/
def ComesOutAbsent (c : Config) (d : Defaults) (v : Value) (type : Ty) : Prop :=
  ∃ k, (c.scope d).resolve v.type type = some k ∧ k.MeetsEmpty v

theorem comesOutAbsent_iff {type : Ty} {k : Conversion}
    (hresolve : (c.scope d).resolve v.type type = some k) :
    c.ComesOutAbsent d v type ↔ (k.evaluate σ v).1 = .ok none := by
  have hjoins : k.Joins (fun _ => True) v.type type :=
    Scope.joins_resolve (fun _ _ _ _ => trivial) hresolve
  have hempty : (k.evaluate σ v).1 = .ok none ↔ k.MeetsEmpty v := by
    unfold Conversion.evaluate
    exact hjoins.run_eq_none_iff _
  rw [hempty]
  constructor
  · rintro ⟨k', hresolve', hmeets⟩
    rw [hresolve] at hresolve'
    cases hresolve'
    exact hmeets
  · intro hmeets
    exact ⟨k, hresolve, hmeets⟩

namespace ReadsAlong

variable (h : c.ReadsAlong σ d f p) (htype : p.terminal = v.type) {k : Conversion}
  (hresolve : (c.scope d).resolve v.type f.type = some k) (hdetached : k.Detached) {i : Nat}
  {o : Occasion ω} (hheld : p.read? σ c.source o.source = some v)
  (hmeets : o.Meets σ (c.settings f.name).conditions)

include h htype hresolve hdetached hheld hmeets

/-- **What comes of a value that is read** through the conversion found for it. -/
theorem comesTo_iff {result : Except MapError (Option Value)} :
    c.ComesTo σ d f i o result ↔ some <$> received σ f.type (k.evaluate σ v).1 = result := by
  rw [← htype] at hresolve
  have hfate := h.fateOf_of_resolve i hresolve hdetached
  have houtcome := MemberPlan.outcome_read
    (m := c.plan i f (readStrategy k none, .read (.path p) k none)) hmeets rfl hdetached hheld
  constructor
  · rintro ⟨plan, hplan, hresult⟩
    rw [hfate] at hplan
    cases hplan
    exact houtcome.symm.trans hresult
  · intro hresult
    exact ⟨_, hfate, houtcome.trans hresult⟩

theorem comesTo_ok_iff :
    c.ComesTo σ d f i o (.ok (some w)) ↔ received σ f.type (k.evaluate σ v).1 = .ok w := by
  rw [h.comesTo_iff htype hresolve hdetached hheld hmeets]
  cases received σ f.type (k.evaluate σ v).1 <;> simp

theorem comesTo_error_iff {e : MapError} :
    c.ComesTo σ d f i o (.error e) ↔ received σ f.type (k.evaluate σ v).1 = .error e := by
  rw [h.comesTo_iff htype hresolve hdetached hheld hmeets]
  cases received σ f.type (k.evaluate σ v).1 <;> simp

end ReadsAlong

/-- **A fitted constant is always assigned.** -/
theorem Declares.alwaysAssigns_iff (h : c.Declares f.name v) {i : Nat}
    (ht : (f, i) ∈ c.targets σ) :
    c.AlwaysAssigns σ d f i w ↔ (c.fitting σ d f.type v).1 = .ok w := by
  constructor
  · rintro ⟨plan, hplan, hconstant, -, -⟩
    exact h.planned_iff.mp ⟨plan, hplan, hconstant⟩
  · intro hfitting
    obtain ⟨plan, hplan, hconstant⟩ := (h.planned_iff (σ := σ) (d := d) (i := i)).mpr hfitting
    have hplans := plans_of_fateOf hplan
    have htype : w.type = plan.type := by
      have hproduces := hplans.production
      rw [hconstant] at hproduces
      cases hproduces with
      | constant first fits => rw [fits.type_eq, hplans.type]
    refine ⟨plan, hplan, hconstant, ?_, ?_⟩
    · intro session spec hspec
      exact (mem_members_iff hspec).mpr ⟨(f, i), ht, hplan⟩
    · intro ω o hmeets
      exact MemberPlan.outcome_constant hmeets hconstant htype

/-- **Constants agree with values that are read.**

Of two configurations that are alike, let one declare a constant for a member, and let the other
read the member along a path, on an occasion where it holds that value.  If the conversion of the
value to the member is detached, then

* the constant is always assigned as some value just if that value is assigned where it is read,
  and the value does not come out absent;
* the constant is reported just if there is no conversion, or the member fails where it is read, or
  the value comes out absent;
* a value that comes out absent is assigned as zero where it is read. -/
theorem constant_agrees (σ : Schema) (d : Defaults) (halike : c.Alike c') (i : Nat)
    (hone : c.targetsNamed σ f.name = [(f, i)]) (hdeclares : c.Declares f.name v)
    (hreads : c'.ReadsAlong σ d f p) (htype : p.terminal = v.type)
    (hdetached : ∀ k, (c.scope d).resolve v.type f.type = some k → k.Detached)
    (o : Occasion ω) (hheld : p.read? σ c.source o.source = some v)
    (hmeets : o.Meets σ (c'.settings f.name).conditions) (hfresh : session.diagnostics = []) :
    (∀ w, c.AlwaysAssigns σ d f i w ↔
        c'.ComesTo σ d f i o (.ok (some w)) ∧ ¬ c.ComesOutAbsent d v f.type) ∧
      ((∃ reason, .constantConversion f.name reason ∈ (c.resolve σ d session).diagnostics) ↔
        (c.scope d).resolve v.type f.type = none ∨ (∃ e, c'.ComesTo σ d f i o (.error e)) ∨
          c.ComesOutAbsent d v f.type) ∧
      (c.ComesOutAbsent d v f.type →
        c'.ComesTo σ d f i o (.ok (some (Value.zero σ f.type)))) := by
  have htarget : (f, i) ∈ c.targets σ := by
    have hmem : (f, i) ∈ c.targetsNamed σ f.name := by simp [hone]
    exact (List.mem_filter.mp hmem).1
  simp only [hdeclares.alwaysAssigns_iff htarget, hdeclares.reported_iff hone hfresh,
    fitting_of_detached hdetached]
  rw [halike.source] at hheld
  cases hresolve : (c.scope d).resolve v.type f.type with
  | none =>
    -- Neither is planned, and nothing is converted.
    have hnone : (c'.scope d).resolve p.terminal f.type = none := by
      rw [htype, ← halike.resolve_eq, hresolve]
    have hunplanned : ∀ result, ¬ c'.ComesTo σ d f i o result := by
      rintro result ⟨plan, hplan, -⟩
      exact hreads.not_planned i hnone plan hplan
    have hpresent : ¬ c.ComesOutAbsent d v f.type := by
      rintro ⟨k, hk, -⟩
      rw [hresolve] at hk
      cases hk
    simp [hunplanned, hpresent]
  | some k =>
    have hresolve' : (c'.scope d).resolve v.type f.type = some k := by
      rw [← halike.resolve_eq, hresolve]
    have hk := hdetached k hresolve
    simp only [hreads.comesTo_ok_iff htype hresolve' hk hheld hmeets,
      hreads.comesTo_error_iff htype hresolve' hk hheld hmeets,
      comesOutAbsent_iff (σ := σ) hresolve]
    refine ⟨?_, ?_, ?_⟩
    · intro w
      exact fitted_eq_ok_iff
    · rw [fitted_eq_error_iff]
      simp
    · intro habsent
      rw [habsent, received_none]

/-- Meters with a value that may be missing, and dials that show it. -/
def dialSchema : Schema where
  naming := ⟨"Text", "Option", "List"⟩
  record
    | "Meter" => { fields := [{ name := "value", type := .option (.prim (.int .i32)) }] }
    | "Dial" => { fields := [{ name := "value", type := .option (.prim .text) }] }
    | _ => {}
  enum _ := { first := { name := "", underlying := 0 } }
  rank _ := 0
  contains_lt := by
    intro r r' h
    obtain ⟨f, hf, ht⟩ := h
    split at hf <;> simp at hf
    · rw [hf] at ht
      cases ht
    · rw [hf] at ht
      cases ht

/-- Dials of meters, with nothing configured. -/
def dial : Config where
  source := "Meter"
  destination := "Dial"

/-- The value of a dial. -/
def dialValue : RecordMap.Field where
  name := "value"
  type := .option (.prim .text)

/-- The first turn of a call for a meter with that value. -/
def dialTurn (v : Value) : Occasion Unit where
  parameter := none
  handedOn := none
  nest := Conversion.unreachable
  source := .record "Meter" [v]
  destination := .record "Dial" [.absent (.prim .text)]
  call := { trail := { outside := () } }

/-- The value of a meter is shown in its way, whether it is read or fixed. -/
theorem constant_agrees_dial :
    let v : Value := .present (.int .i32 5)
    let shown : Value := .present (.text "5")
    dial.ComesTo dialSchema {} dialValue 0 (dialTurn v) (.ok (some shown)) ∧
      (dial.apply (.constant "value" v)).AlwaysAssigns dialSchema {} dialValue 0 shown := by
  intro v shown
  have hcomesTo : dial.ComesTo dialSchema {} dialValue 0 (dialTurn v) (.ok (some shown)) :=
    ⟨_, by with_unfolding_all rfl, by with_unfolding_all rfl⟩
  have halike : (dial.apply (.constant "value" v)).Alike dial := by
    refine ⟨rfl, rfl, ?_⟩
    intro slot hshared
    cases slot <;> first | rfl | cases hshared
  have hresolve : ((dial.apply (.constant "value" v)).scope {}).resolve v.type dialValue.type =
      some (.unwrap (.prim (.int .i32)) (.wrap (.prim .text)
        (.primitive (.int .i32) .text))) := by
    with_unfolding_all rfl
  have hdetached : ∀ k, ((dial.apply (.constant "value" v)).scope {}).resolve v.type
      dialValue.type = some k → k.Detached := by
    intro k hk
    rw [hresolve] at hk
    cases hk
    exact ⟨rfl, nofun⟩
  have hshown : ((Conversion.unwrap (.prim (.int .i32)) (.wrap (.prim .text)
      (.primitive (.int .i32) .text))).evaluate dialSchema v).1 = .ok (some shown) := by
    with_unfolding_all rfl
  have hpresent : ¬ (dial.apply (.constant "value" v)).ComesOutAbsent {} v dialValue.type := by
    rw [comesOutAbsent_iff hresolve, hshown]
    exact nofun
  have hdeclares : (dial.apply (.constant "value" v)).Declares dialValue.name v :=
    ⟨by with_unfolding_all rfl, by with_unfolding_all rfl⟩
  have hreads : dial.ReadsAlong dialSchema {} dialValue
      { head := 0, terminal := .option (.prim (.int .i32)), names := ["value"] } :=
    ⟨⟨rfl, Nat.zero_le 1⟩, rfl, .inr ⟨rfl, by with_unfolding_all rfl⟩, rfl⟩
  have hfresh : ({ pair := "" } : Session).diagnostics = [] := rfl
  obtain ⟨hassigns, -, -⟩ := constant_agrees dialSchema {} halike 0 (by with_unfolding_all rfl)
    hdeclares hreads rfl hdetached (dialTurn v) (by with_unfolding_all rfl) ⟨_, rfl⟩ hfresh
  exact ⟨hcomesTo, (hassigns shown).mpr ⟨hcomesTo, hpresent⟩⟩

/-- **Absent constants are refused.**  The value of a meter that is missing is a problem where it is
fixed, though the dial can be without a value, and is so where it is read. -/
theorem absent_constant_refused :
    let v : Value := .absent (.prim (.int .i32))
    dialValue.type.isNullable = true ∧
      (dial.scope {}).resolve v.type dialValue.type = some (.unwrap (.prim (.int .i32))
        (.wrap (.prim .text) (.primitive (.int .i32) .text))) ∧
      dial.ComesTo dialSchema {} dialValue 0 (dialTurn v) (.ok (some (.absent (.prim .text)))) ∧
      ((dial.apply (.constant "value" v)).resolve dialSchema {} { pair := "" }).diagnostics =
        [.constantConversion "value" "the value is absent"] := by
  intro v
  refine ⟨rfl, ?_, ⟨_, by with_unfolding_all rfl, by with_unfolding_all rfl⟩, ?_⟩
  · with_unfolding_all rfl
  · with_unfolding_all rfl

end Config

end RecordMap
