import RecordMap.Proofs.Nesting.Callbacks
import RecordMap.Proofs.Plan.Accounting

/-!
# What resolving a mapping runs

Resolving a mapping runs no callback but the converters that fit its constants and
sentinels to their members (`Config.FitsBy`).  So every entry that the journal of a
build has is the label of such a converter (`Config.only_resolve`).
-/

namespace RecordMap

variable {ω : Type} {σ : Schema} {parameter : Option Value}

/-! ## §1. Conversions -/

/-- The journal has only entries of the wanted kind. -/
def Journal.Only (P : Option String → Prop) (j : Journal) : Prop := ∀ label ∈ j.entries, P label

theorem Journal.Only.enter {P : Option String → Prop} {j : Journal} (h : j.Only P)
    {label : Option String} (hlabel : P label) : (j.enter label).Only P := by
  intro l hl
  rw [entries_enter] at hl
  rcases List.mem_append.mp hl with hold | hnew
  · exact h l hold
  · cases List.mem_singleton.mp hnew
    exact hlabel

theorem Journal.Only.append {P : Option String → Prop} {j k : Journal} (hj : j.Only P)
    (hk : k.Only P) : (j ++ k).Only P := by
  intro l hl
  rw [entries_append] at hl
  exact (List.mem_append.mp hl).elim (hj l) (hk l)

/-- **A converter enters its own label** at most. -/
theorem Converter.ensures_apply {P : Option String → Prop} (k : Converter) (hlabel : P k.label)
    (v : Value) :
    Run.Ensures (fun c : Call ω => c.trail.journal.Only P) (fun _ => True) (fun _ => True)
      (k.apply σ parameter v) := by
  have hnote : Run.Ensures (fun c : Call ω => c.trail.journal.Only P) (fun _ => True)
      (fun _ => True) (Call.note k.label) := .modify fun _ hc => hc.enter hlabel
  have hinput : Run.Ensures (fun c : Call ω => c.trail.journal.Only P) (fun _ => True)
      (fun _ => True) (k.input σ v) := .require (fun _ _ => trivial) fun _ => trivial
  unfold apply
  cases k.body with
  | plain f => exact hinput.bind fun v _ => hnote.bind fun _ _ => .pure trivial
  | fallible f =>
    refine hinput.bind fun v _ => hnote.bind fun _ _ => ?_
    cases f v with
    | ok out => exact .pure trivial
    | error cause => exact .throw trivial
  | context f =>
    -- A body over the context changes the store, and not the journal.
    exact hinput.bind fun v _ => hnote.bind fun _ _ => fun _ hc => ⟨hc, trivial⟩
  | parameter t f =>
    refine Run.Ensures.bind (Q := fun _ => True) (.require (fun _ _ => trivial) fun _ => trivial) ?_
    exact fun p _ => hinput.bind fun v _ => hnote.bind fun _ _ => .pure trivial

/-- Evaluating a conversion that nests nothing runs its converters only. -/
theorem Conversion.only_evaluate {conversion : Conversion} (hflat : conversion.pairings = [])
    (v : Value) :
    (conversion.evaluate σ v).2.Only fun label => ∃ k ∈ conversion.converters, k.label = label := by
  have hrun : Run.Simulates (fun c c' : Call Unit => c = c' ∧
      c.trail.journal.Only fun label => ∃ k ∈ conversion.converters, k.label = label)
      (fun _ _ => False) (conversion.run σ none none Conversion.unreachable v)
      (conversion.run σ none none Conversion.unreachable v) := by
    refine conversion.simulates_leaves (fun k hk v => ?_) (fun p hp => ?_) v
    · rintro c _ ⟨rfl, hc⟩
      exact .inr ⟨rfl, rfl, (k.ensures_apply ⟨k, hk, rfl⟩ v c hc).1⟩
    · rw [hflat] at hp
      cases hp
  exact (hrun.lockstep { trail := { outside := () } } _ ⟨rfl, nofun⟩).2.2

/-! ## §2. Values and sentinels that are fitted -/

namespace Config

variable {c : Config} {d : Defaults} {type : Ty}

/-- The converters of the conversion that fits a value to a type. -/
def FittedBy (c : Config) (d : Defaults) (type : Ty) (v : Value) (k : Converter) : Prop :=
  v.type ≠ type ∧ ∃ conversion, (c.scope d).resolve v.type type = some conversion ∧
    k ∈ conversion.converters

/-- **Fitting a value** runs the converters that fit it. -/
theorem only_fitting (v : Value) :
    (c.fitting σ d type v).2.Only fun label => ∃ k, c.FittedBy d type v k ∧ k.label = label := by
  unfold fitting
  split
  · exact nofun
  · rename_i hdiffers
    split
    · exact nofun
    · rename_i conversion hfound
      split
      · exact nofun
      · rename_i hflat
        have hpairings : conversion.pairings = [] := by
          by_contra hnested
          exact hflat ((Conversion.isNested_iff conversion).mpr hnested)
        intro label hlabel
        obtain ⟨k, hk, rfl⟩ := Conversion.only_evaluate hpairings v label hlabel
        exact ⟨k, ⟨hdiffers, conversion, hfound, hk⟩, rfl⟩

/-! ## §3. Mappings -/

/-- **A converter is run when a mapping is resolved**: it is in the conversion that
fits a constant or a sentinel to a writable member. -/
def FitsBy (σ : Schema) (c : Config) (d : Defaults) (k : Converter) : Prop :=
  ∃ f ∈ c.writable σ, ∃ v, (c.constant? d (c.origin? f.name) f.type = some v ∨
    c.sentinel? d (c.member? f.name) f.type = some v) ∧ c.FittedBy d f.type v k

theorem only_fateOf {declaration : Nat} {f : RecordMap.Field} (hf : f ∈ c.writable σ) :
    (c.fateOf σ d declaration f).2.journal.Only fun label =>
      ∃ k, c.FitsBy σ d k ∧ k.label = label := by
  obtain ⟨fate, fs, j, hfate, hcomes⟩ := comes_fateOf (σ := σ) (c := c) (d := d) declaration f
  rw [hfate]
  show j.Only _
  -- What is fitted is a constant or a sentinel of the member.
  have hfits : ∀ {v : Value} {out : Except String Value},
      (c.constant? d (c.origin? f.name) f.type = some v ∨
        c.sentinel? d (c.member? f.name) f.type = some v) →
      c.fitting σ d f.type v = (out, j) →
      j.Only fun label => ∃ k, c.FitsBy σ d k ∧ k.label = label := by
    intro v out hfirst hfitting label hlabel
    have hjournal : j = (c.fitting σ d f.type v).2 := by rw [hfitting]
    rw [hjournal] at hlabel
    obtain ⟨k, hk, hkl⟩ := only_fitting v label hlabel
    exact ⟨k, ⟨f, hf, v, hfirst, hk⟩, hkl⟩
  cases hcomes with
  | constant heeds first fits => exact hfits (.inl first) fits
  | read heeds unset source spares guards =>
    cases guards with
    | sentinel needed first fits => exact hfits (.inr first) fits
    | unguarded lacking => exact nofun
  | rejected heeds before rejects =>
    cases rejects with
    | constant first misfits => exact hfits (.inl first) misfits
    | sentinel unset source spares first misfits => exact hfits (.inr first) misfits
    | _ => exact nofun
  | _ => exact nofun

/-- **The journal of a build** has only labels of such converters. -/
theorem only_resolve (session : Session) :
    (c.resolve σ d session).journal.Only fun label => ∃ k, c.FitsBy σ d k ∧ k.label = label := by
  have hverdicts : ∀ v ∈ c.verdicts σ d, v.2.journal.Only fun label =>
      ∃ k, c.FitsBy σ d k ∧ k.label = label := by
    intro v hv
    obtain ⟨⟨f, i⟩, ht, rfl⟩ := List.mem_map.mp hv
    refine only_fateOf ?_
    rw [← map_fst_targets]
    exact List.mem_map_of_mem ht
  show (Journal.concat ((c.verdicts σ d).map (·.2.journal))).Only _
  generalize c.verdicts σ d = verdicts at hverdicts
  unfold Journal.concat
  -- By induction on the verdicts, from the journal of those before.
  have hfold : ∀ j : Journal, (j.Only fun label => ∃ k, c.FitsBy σ d k ∧ k.label = label) →
      ((verdicts.map (·.2.journal)).foldl Journal.append j).Only fun label =>
        ∃ k, c.FitsBy σ d k ∧ k.label = label := by
    induction verdicts with
    | nil => exact fun j hj => hj
    | cons v rest ih =>
      obtain ⟨hv, hrest⟩ := List.forall_mem_cons.mp hverdicts
      exact fun j hj => ih hrest _ (hj.append hv)
  exact hfold {} nofun

end Config

end RecordMap
