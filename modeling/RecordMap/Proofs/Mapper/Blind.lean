import RecordMap.Proofs.Mapper.Parameter
import RecordMap.Proofs.Owner.Nesting

/-!
# Parameters that nothing looks at

A callback gets at the parameter of a call in two ways: it declares one, or its body is
over the context.  A mapping that declares no parameter keeps no callback of the first
kind.  If its bodies over the context do not look at the parameter either
(`Specification.Blind`), then its routines are the same with any parameter, or without
one (`Specification.update_of_blind`, `Specification.construct_of_blind`).
-/

namespace RecordMap

variable {ω α : Type} {σ : Schema} {nest : Nesting ω} {q r handedOn : Option Value}

/-! ## §1. Bodies over the context -/

/-- A body over the context does not look at the parameter in it. -/
def Context.Blind (f : Context → α) : Prop :=
  ∀ q r scratch, f { parameter := q, scratch } = f { parameter := r, scratch }

/-- The converter does not look at the parameter through the context. -/
def Converter.Blind (k : Converter) : Prop :=
  ∀ f, k.body = .context f → ∀ v, Context.Blind (f v)

/-- The provider does not look at the parameter through the context. -/
def Provider.Blind (p : Provider) : Prop :=
  ∀ f, p.body = .context f → ∀ source, Context.Blind (f source)

/-- The hook does not look at the parameter through the context. -/
def Hook.Blind (h : Hook) : Prop :=
  ∀ f, h.body = .context f → ∀ source destination, Context.Blind (f source destination)

/-- The provider of a source is blind, if it is one. -/
def Accessor.Blind : Accessor → Prop
  | path _ => True
  | provider p => p.Blind

/-- **No callback of a plan looks at the parameter through the context.** -/
structure Specification.Blind (s : Specification) : Prop where
  accessors : ∀ plan ∈ s.members, ∀ a c t, plan.production = .read a c t → a.Blind
  converters : ∀ plan ∈ s.members, ∀ a c t, plan.production = .read a c t →
    ∀ k ∈ c.converters, k.Blind
  before : ∀ h ∈ s.before, h.Blind
  after : ∀ h ∈ s.after, h.Blind

/-- A plan that only reads paths, with no converter and no hook, is blind. -/
theorem Specification.blind_of_paths {s : Specification}
    (hmembers : ∀ plan ∈ s.members, ∃ p c t, plan.production = .read (.path p) c t ∧
      c.converters = [])
    (hbefore : s.before = []) (hafter : s.after = []) : s.Blind := by
  constructor
  case accessors =>
    intro plan hplan a c t hread
    obtain ⟨p, c', t', hpath, _⟩ := hmembers plan hplan
    rw [hread] at hpath
    cases hpath
    exact trivial
  case converters =>
    intro plan hplan a c t hread k hk
    obtain ⟨p, c', t', hpath, hnone⟩ := hmembers plan hplan
    rw [hread] at hpath
    cases hpath
    rw [hnone] at hk
    cases hk
  case before =>
    intro h hh
    rw [hbefore] at hh
    cases hh
  case after =>
    intro h hh
    rw [hafter] at hh
    cases hh

theorem Call.withContext_of_blind {f : Context → α × Scratch} (h : Context.Blind f) :
    (Call.withContext q f : Run (Call ω) α) = Call.withContext r f := by
  unfold withContext
  refine bind_congr fun c => ?_
  rw [h q r c.scratch]

/-! ## §2. Callbacks -/

theorem Converter.apply_of_blind {k : Converter} (hundeclared : k.parameter? = none)
    (hblind : k.Blind) (v : Value) :
    (k.apply σ q v : Run (Call ω) Value) = k.apply σ r v := by
  unfold parameter? at hundeclared
  unfold apply
  cases hbody : k.body with
  | plain f => rfl
  | fallible f => rfl
  | context f =>
    refine bind_congr fun v => bind_congr fun _ => ?_
    exact Call.withContext_of_blind (hblind f hbody v)
  | parameter t f =>
    rw [hbody] at hundeclared
    cases hundeclared

theorem Provider.provide_of_blind {p : Provider} (hundeclared : p.parameter? = none)
    (hblind : p.Blind) (source destination : Value) :
    (p.provide σ q source destination : Run (Call ω) Value) = p.provide σ r source destination := by
  unfold parameter? at hundeclared
  unfold provide
  cases hbody : p.body with
  | source f => rfl
  | destination f => rfl
  | parameter t f =>
    rw [hbody] at hundeclared
    cases hundeclared
  | context f =>
    refine bind_congr fun _ => ?_
    exact Call.withContext_of_blind (hblind f hbody source)

theorem Condition.holds_of_undeclared {k : Condition} (hundeclared : k.parameter? = none)
    (source : Value) : (k.holds σ q source : Run (Call ω) Bool) = k.holds σ r source := by
  unfold parameter? at hundeclared
  unfold holds
  cases hbody : k.body with
  | source f => rfl
  | parameter t f =>
    rw [hbody] at hundeclared
    cases hundeclared

theorem Condition.allHold_of_undeclared {ks : List Condition}
    (hundeclared : ∀ k ∈ ks, k.parameter? = none) (source : Value) :
    (allHold σ q source ks : Run (Call ω) Bool) = allHold σ r source ks := by
  induction ks with
  | nil => rfl
  | cons k rest ih =>
    obtain ⟨hk, hrest⟩ := List.forall_mem_cons.mp hundeclared
    unfold allHold
    rw [k.holds_of_undeclared (r := r) hk, ih hrest]

theorem Hook.run_of_blind {h : Hook} (hundeclared : h.parameter? = none) (hblind : h.Blind)
    (source : Value) : (h.run σ q source : Run (Assembly ω) Unit) = h.run σ r source := by
  unfold parameter? at hundeclared
  unfold run
  refine bind_congr fun a => ?_
  have hchange : (h.change σ q source a.destination : Run (Call ω) Value) =
      h.change σ r source a.destination := by
    unfold change
    cases hbody : h.body with
    | plain f => rfl
    | parameter t f =>
      rw [hbody] at hundeclared
      cases hundeclared
    | context f =>
      refine bind_congr fun _ => ?_
      exact Call.withContext_of_blind (hblind f hbody source a.destination)
  rw [hchange]

theorem Factory.make_of_undeclared {f : Factory} (hundeclared : f.parameter? = none)
    (source : Value) : (f.make σ q source : Run (Call ω) Value) = f.make σ r source := by
  unfold parameter? at hundeclared
  unfold make
  cases hbody : f.body with
  | source g => rfl
  | parameter t g =>
    rw [hbody] at hundeclared
    cases hundeclared

/-! ## §3. Members -/

/-- A conversion looks at the parameter through its converters only. -/
theorem Conversion.run_of_blind {c : Conversion}
    (hundeclared : ∀ k ∈ c.converters, k.parameter? = none)
    (hblind : ∀ k ∈ c.converters, k.Blind) (v : Value) :
    c.run σ q handedOn nest v = c.run σ r handedOn nest v := by
  refine Run.Simulates.eq (c.simulates_leaves (fun k hk v => ?_) (fun p _ v => .refl _) v)
  rw [k.apply_of_blind (r := r) (hundeclared k hk) (hblind k hk)]
  exact .refl _

theorem Accessor.read_of_blind {a : Accessor} {c : Conversion} (ha : a.parameter? = none)
    (hblind : a.Blind) (hundeclared : ∀ k ∈ c.converters, k.parameter? = none)
    (hconverters : ∀ k ∈ c.converters, k.Blind) (recordName : String)
    (source destination : Value) :
    a.read σ q handedOn nest recordName source destination c =
      a.read σ r handedOn nest recordName source destination c := by
  have hrun : ∀ v, c.run σ q handedOn nest v = c.run σ r handedOn nest v :=
    fun v => Conversion.run_of_blind hundeclared hconverters v
  unfold read
  cases a with
  | path p =>
    dsimp only
    split
    · exact hrun _
    · rfl
  | provider p =>
    dsimp only
    rw [p.provide_of_blind (r := r) ha hblind]
    exact bind_congr fun raw => hrun raw

/-- No callback of a member declares a parameter. -/
theorem MemberPlan.assign_of_blind {m : MemberPlan} (hundeclared : m.parameters = [])
    (haccessor : ∀ a c t, m.production = .read a c t → a.Blind)
    (hconverters : ∀ a c t, m.production = .read a c t → ∀ k ∈ c.converters, k.Blind)
    (recordName : String) (source : Value) :
    m.assign σ q handedOn nest recordName source = m.assign σ r handedOn nest recordName source := by
  obtain ⟨hconditions, hproduction⟩ := List.append_eq_nil_iff.mp hundeclared
  have hvalue : ∀ destination, m.value σ q handedOn nest recordName source destination =
      m.value σ r handedOn nest recordName source destination := by
    intro destination
    unfold value
    cases hread : m.production with
    | constant v => rfl
    | read a c t =>
      rw [hread] at hproduction
      obtain ⟨ha, hc⟩ := List.append_eq_nil_iff.mp hproduction
      dsimp only
      rw [a.read_of_blind (r := r) (Option.toList_eq_nil_iff.mp ha) (haccessor a c t hread)
        (List.filterMap_eq_nil_iff.mp hc) (hconverters a c t hread)]
  unfold assign
  rw [Condition.allHold_of_undeclared (r := r) (List.filterMap_eq_nil_iff.mp hconditions)]
  simp only [hvalue]

/-! ## §4. Routines -/

namespace Specification

variable {s : Specification} {nests : Nat → Nesting ω}

/-- Where the callbacks declare nothing, none of each kind does. -/
theorem undeclared_parts (h : s.parameters = []) :
    (∀ m ∈ s.members, m.parameters = []) ∧ s.creation.parameters = [] ∧
      (∀ k ∈ s.before, k.parameter? = none) ∧ (∀ k ∈ s.after, k.parameter? = none) ∧
        ∀ k ∈ s.guards, k.parameter? = none := by
  unfold parameters at h
  simp only [List.append_eq_nil_iff, List.flatMap_eq_nil_iff, List.filterMap_eq_nil_iff] at h
  obtain ⟨⟨⟨⟨hmembers, hcreation⟩, hbefore⟩, hafter⟩, hguards⟩ := h
  exact ⟨hmembers, hcreation, hbefore, hafter, hguards⟩

variable (hundeclared : s.parameters = []) (hnone : s.parameter = none) (hblind : s.Blind)

include hundeclared hnone hblind

/-- **The body of a call that looks at no parameter** is the same with any. -/
theorem body_of_blind (q r : Option Value) (source : Value) :
    s.body σ nests q source = s.body σ nests r source := by
  obtain ⟨hmembers, -, hbefore, hafter, hguards⟩ := undeclared_parts hundeclared
  have hassign : s.assignMembers σ nests q source = s.assignMembers σ nests r source := by
    unfold assignMembers
    -- Nothing is handed on, whatever the parameter.
    rw [Owner.handedOn_of_undeclared hnone, Owner.handedOn_of_undeclared hnone]
    refine Run.Sequential.eq.forM fun m hm => ?_
    exact m.assign_of_blind (hmembers m hm) (hblind.accessors m hm) (hblind.converters m hm) _ _
  have hhooks : ∀ hooks : List Hook, (∀ h ∈ hooks, h.parameter? = none) →
      (∀ h ∈ hooks, h.Blind) →
      (hooks.forM fun h => h.run σ q source : Run (Assembly ω) Unit) =
        hooks.forM fun h => h.run σ r source :=
    fun hooks hnone hb =>
      Run.Sequential.eq.forM fun h hh => h.run_of_blind (hnone h hh) (hb h hh) source
  unfold body
  rw [hhooks s.before hbefore hblind.before, hhooks s.after hafter hblind.after,
    Condition.allHold_of_undeclared (r := r) hguards, hassign]

theorem update_of_blind (q r : Option Value) (source : Value) :
    s.update σ nests q source = s.update σ nests r source := by
  unfold update
  rw [body_of_blind hundeclared hnone hblind q r source]

theorem construct_of_blind (q r : Option Value) (source : Value) :
    s.construct σ nests q source = s.construct σ nests r source := by
  obtain ⟨-, hcreation, -⟩ := undeclared_parts hundeclared
  have hcreate : (s.create σ q source : Run (Call ω) Value) = s.create σ r source := by
    unfold create
    cases hkind : s.creation with
    | custom f =>
      rw [hkind] at hcreation
      exact f.make_of_undeclared (Option.toList_eq_nil_iff.mp hcreation) source
    | fallback v => rfl
    | zero => rfl
  unfold construct
  rw [hcreate, body_of_blind hundeclared hnone hblind q r source]

end Specification

end RecordMap
