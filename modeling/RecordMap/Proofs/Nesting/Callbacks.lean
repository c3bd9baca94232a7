import RecordMap.Mapper
import RecordMap.Proofs.Run.Simulates

/-!
# Callbacks in related calls

A callback sees its arguments, and of the call only the scratch store, and that only
if its body is over the context.  So the same callback run in two related calls gives
the same result, for any relation that entering a label keeps
(`Call.KeepsNotes`) and, where bodies over the context are run, that makes the stores
agree (`Call.SharesStore`).

A conversion does nothing by itself: two runs of it simulate each other as soon as
those of its converters and of the mappers nested in it do
(`Conversion.simulates_leaves`).
-/

namespace RecordMap

variable {ω ω' α : Type} {I : Call ω → Call ω' → Prop} {esc : MapError → Call ω → Prop}
  {σ : Schema} {parameter : Option Value}

/-! ## §1. Relations of calls -/

/-- A relation of calls that entering a label on both sides keeps. -/
def Call.KeepsNotes (I : Call ω → Call ω' → Prop) : Prop :=
  ∀ c c' label, I c c' →
    I { c with trail.journal := c.trail.journal.enter label }
      { c' with trail.journal := c'.trail.journal.enter label }

/-- Related calls have the same store, and any other would do as well. -/
def Call.SharesStore (I : Call ω → Call ω' → Prop) : Prop :=
  ∀ c c', I c c' → c.scratch = c'.scratch ∧
    ∀ scratch, I { c with scratch } { c' with scratch }

theorem Call.simulates_note (hI : Call.KeepsNotes I) (label : Option String) :
    Run.Simulates I esc (Call.note label) (Call.note label) :=
  .modify fun _ _ hc => hI _ _ label hc

theorem Call.simulates_withContext (hI : Call.SharesStore I) (f : Context → α × Scratch) :
    Run.Simulates I esc (Call.withContext parameter f) (Call.withContext parameter f) := by
  intro c c' hc
  obtain ⟨hscratch, hkeep⟩ := hI c c' hc
  -- Both sides hand the same context to the body.
  have hcontext : f { parameter, scratch := c.scratch } = f { parameter, scratch := c'.scratch } := by
    rw [hscratch]
  refine .inr ⟨?_, ?_⟩
  · show Except.ok (f { parameter, scratch := c.scratch }).1 =
      Except.ok (f { parameter, scratch := c'.scratch }).1
    rw [hcontext]
  show I { c with scratch := (f { parameter, scratch := c.scratch }).2 }
    { c' with scratch := (f { parameter, scratch := c'.scratch }).2 }
  rw [hcontext]
  exact hkeep _

theorem Call.simulates_fetch (t : Ty) :
    Run.Simulates I esc (Call.fetch σ parameter t) (Call.fetch σ parameter t) :=
  .require _ _

/-! ## §2. Callbacks -/

/-- The body of a converter is one over the context. -/
def Converter.usesContext (c : Converter) : Bool :=
  match c.body with
  | .context _ => true
  | _ => false

/-- The body of a provider is one over the context. -/
def Provider.usesContext (p : Provider) : Bool :=
  match p.body with
  | .context _ => true
  | _ => false

variable (hI : Call.KeepsNotes I)

include hI

theorem Converter.simulates_apply (c : Converter)
    (hcontext : c.usesContext = true → Call.SharesStore I) (v : Value) :
    Run.Simulates I esc (c.apply σ parameter v) (c.apply σ parameter v) := by
  have hinput : Run.Simulates I esc (c.input σ v) (c.input σ v) := .require _ _
  have hnote : Run.Simulates I esc (Call.note c.label) (Call.note c.label) :=
    Call.simulates_note hI c.label
  unfold Converter.usesContext at hcontext
  unfold Converter.apply
  cases hbody : c.body with
  | plain f => exact hinput.bind fun v => hnote.bind fun _ => .pure _
  | fallible f =>
    refine hinput.bind fun v => hnote.bind fun _ => ?_
    cases f v with
    | ok out => exact .pure out
    | error cause => exact .throw _
  | context f =>
    rw [hbody] at hcontext
    exact hinput.bind fun v => hnote.bind fun _ => Call.simulates_withContext (hcontext rfl) (f v)
  | parameter t f =>
    exact (Call.simulates_fetch t).bind fun p => hinput.bind fun v => hnote.bind fun _ => .pure _

theorem Provider.simulates_provide (p : Provider)
    (hcontext : p.usesContext = true → Call.SharesStore I) (source destination : Value) :
    Run.Simulates I esc (p.provide σ parameter source destination)
      (p.provide σ parameter source destination) := by
  have hnote : Run.Simulates I esc (Call.note p.label) (Call.note p.label) :=
    Call.simulates_note hI p.label
  unfold Provider.usesContext at hcontext
  unfold Provider.provide
  cases hbody : p.body with
  | source f => exact hnote.bind fun _ => .pure _
  | destination f => exact hnote.bind fun _ => .pure _
  | parameter t f => exact (Call.simulates_fetch t).bind fun a => hnote.bind fun _ => .pure _
  | context f =>
    rw [hbody] at hcontext
    exact hnote.bind fun _ => Call.simulates_withContext (hcontext rfl) (f source)

theorem Condition.simulates_holds (c : Condition) (source : Value) :
    Run.Simulates I esc (c.holds σ parameter source) (c.holds σ parameter source) := by
  have hnote : Run.Simulates I esc (Call.note c.label) (Call.note c.label) :=
    Call.simulates_note hI c.label
  unfold Condition.holds
  cases c.body with
  | source f => exact hnote.bind fun _ => .pure _
  | parameter t f => exact (Call.simulates_fetch t).bind fun a => hnote.bind fun _ => .pure _

theorem Condition.simulates_allHold (cs : List Condition) (source : Value) :
    Run.Simulates I esc (Condition.allHold σ parameter source cs)
      (Condition.allHold σ parameter source cs) := by
  induction cs with
  | nil => exact .pure true
  | cons c rest ih =>
    refine (c.simulates_holds hI source).bind fun holds => ?_
    cases holds with
    | true => exact ih
    | false => exact .pure false

theorem Hook.simulates_change (h : Hook) (hstore : Call.SharesStore I) (source destination : Value) :
    Run.Simulates I esc (h.change σ parameter source destination)
      (h.change σ parameter source destination) := by
  have hnote : Run.Simulates I esc (Call.note h.label) (Call.note h.label) :=
    Call.simulates_note hI h.label
  unfold Hook.change
  cases h.body with
  | plain f => exact hnote.bind fun _ => .pure _
  | parameter t f => exact (Call.simulates_fetch t).bind fun a => hnote.bind fun _ => .pure _
  | context f => exact hnote.bind fun _ => Call.simulates_withContext hstore (f source destination)

theorem Factory.simulates_make (f : Factory) (source : Value) :
    Run.Simulates I esc (f.make σ parameter source) (f.make σ parameter source) := by
  have hnote : Run.Simulates I esc (Call.note f.label) (Call.note f.label) :=
    Call.simulates_note hI f.label
  unfold Factory.make
  cases f.body with
  | source g => exact hnote.bind fun _ => .pure _
  | parameter t g => exact (Call.simulates_fetch t).bind fun a => hnote.bind fun _ => .pure _

omit hI

/-! ## §3. Conversions -/

/-- **A conversion in related calls** does on both sides what its converters and the
mappers nested in it do there; everything else in it is the same. -/
theorem Conversion.simulates_leaves {nest : Nesting ω} {nest' : Nesting ω'}
    {parameter' handedOn handedOn' : Option Value} (c : Conversion)
    (hconverters : ∀ k ∈ c.converters, ∀ v,
      Run.Simulates I esc (k.apply σ parameter v) (k.apply σ parameter' v))
    (hnested : ∀ p ∈ c.pairings, ∀ v,
      Run.Simulates I esc (Call.onTrail (nest p v handedOn)) (Call.onTrail (nest' p v handedOn')))
    (v : Value) :
    Run.Simulates I esc (c.run σ parameter handedOn nest v)
      (c.run σ parameter' handedOn' nest' v) := by
  induction c generalizing v with
  | passThrough t =>
    rw [Conversion.run, Conversion.run]
    exact .map _ (.require _ _)
  | converter k =>
    rw [Conversion.run, Conversion.run]
    exact .map _ (hconverters k (List.mem_singleton.mpr rfl) v)
  | operator k =>
    rw [Conversion.run, Conversion.run]
    exact .map _ (hconverters k (List.mem_singleton.mpr rfl) v)
  | primitive a b =>
    rw [Conversion.run, Conversion.run]
    refine .map _ ?_
    unfold Conversion.castOrFail
    split
    · exact .pure _
    · exact .throw _
    · exact .throw _
  | fromEnum e b =>
    rw [Conversion.run, Conversion.run]
    refine .map _ ?_
    unfold Conversion.variantOut
    split
    · exact (Run.Simulates.require _ _).bind fun name => .pure _
    · refine (Run.Simulates.require _ _).bind fun n => ?_
      split
      · exact .pure _
      · exact .throw _
  | toEnum a e =>
    rw [Conversion.run, Conversion.run]
    refine .map _ ?_
    unfold Conversion.variantIn
    split
    · split
      · exact .require _ _
      · exact .throw _
    · refine (Run.Simulates.require _ _).bind fun scalar => ?_
      split
      · exact .throw _
      · exact .require _ _
  | enumToEnum a b =>
    rw [Conversion.run, Conversion.run]
    exact .map _ ((Run.Simulates.require _ _).bind fun name => .require _ _)
  | unwrap t next ih =>
    rw [Conversion.run, Conversion.run]
    split
    · exact ih hconverters hnested _
    · exact .pure none
  | wrap t next ih =>
    rw [Conversion.run, Conversion.run]
    refine (ih hconverters hnested v).bind fun o => ?_
    cases o with
    | some out => exact .map _ (.require _ _)
    | none => exact .pure none
  | wrapSource t next ih =>
    rw [Conversion.run, Conversion.run]
    exact (Run.Simulates.require _ _).bind fun wrapped => ih hconverters hnested wrapped
  | elements a b next ih =>
    rw [Conversion.run, Conversion.run]
    refine (Run.Simulates.require _ _).bind fun items => ?_
    refine Run.Simulates.bind
      (.mapM fun item _ => (ih hconverters hnested item).bind fun o => .pure _) ?_
    exact fun out => .map _ (.require _ _)
  | nested p =>
    rw [Conversion.run, Conversion.run]
    exact .map _ (hnested p (List.mem_singleton.mpr rfl) v)

end RecordMap
