import RecordMap.Proofs.Conversion.Bare
import RecordMap.Proofs.Plan.Fitting
import RecordMap.Proofs.Plan.Independent

/-!
# Explicit and automatic nesting

A member may be told to nest along a path, or only to read along it.  In a mapping without
converters and operators the two come to the same, if the path ends at a wrapped record and the
member is one of another name: every member has the same fate, and the mapping resolves alike
(`Config.nested_agrees`).

A member without a nesting conversion is rejected for that reason.  One that has it is planned
with it, unless the conversion leads back to the mapping itself, or a sentinel does not fit.
-/

namespace RecordMap

/-- **The types hold records of different names**, each in options and sequences. -/
def Ty.HoldRecords (a b : Ty) : Prop :=
  ∃ (r s : String) (W V : Wrapper), r ≠ s ∧ a = W.ty (.record r) ∧ b = V.ty (.record s)

theorem Ty.HoldRecords.resolve_eq {a b : Ty} (h : a.HoldRecords b) {S : Scope} (hS : S.Bare) :
    S.resolve a b = Scope.nesting S.profile a b := by
  obtain ⟨r, s, W, V, hrs, rfl, rfl⟩ := h
  exact hS.resolve_eq_nesting hrs W V

namespace Config

variable {σ : Schema} {b : Config} {d : Defaults} {member text : String} {type : Ty}

/-! ## §1. One source, two settings -/

/-- The sources found along a path are the same. -/
theorem readSource_nested (hbare : (b.scope d).Bare)
    (hrecords : ∀ p, Path.parse? σ b.source text = some p → p.terminal.HoldRecords type) :
    b.readSource σ d member type (some (.nested text none)) =
      b.readSource σ d member type (some (.path text)) := by
  show (do
      let p ← b.explicitPath σ member text
      let conversion ← requireConversion σ member p.terminal type
        (Scope.nesting b.profile p.terminal type)
      return (Accessor.path p, conversion)) = (do
      let p ← b.explicitPath σ member text
      let conversion ← requireConversion σ member p.terminal type
        ((b.scope d).resolve p.terminal type)
      return (Accessor.path p, conversion))
  unfold explicitPath
  cases hp : Path.parse? σ b.source text with
  | none => rfl
  | some p =>
    have hresolve : (b.scope d).resolve p.terminal type = Scope.nesting b.profile p.terminal type :=
      (hrecords p hp).resolve_eq hbare
    simp only [pure_bind, hresolve]

/-- So are the productions, of a member without another source. -/
theorem production_nested (hbare : (b.scope d).Bare) {f : RecordMap.Field} {s : MemberConfig}
    (hrecords : ∀ p, Path.parse? σ b.source text = some p → p.terminal.HoldRecords f.type)
    (hnew : s.origins = []) :
    b.production σ d f { s with origins := s.origins ++ [.nested text none] } =
      b.production σ d f { s with origins := s.origins ++ [.path text] } := by
  -- The settings differ in the source only, and a production looks at their sentinel.
  have hsame : ∀ a k,
      b.readProduction σ d (some { s with origins := s.origins ++ [.nested text none] })
          f.name f.type a k =
        b.readProduction σ d (some { s with origins := s.origins ++ [.path text] })
          f.name f.type a k :=
    fun _ _ => rfl
  unfold production
  simp only [hnew, List.nil_append, List.head?_cons, constant?] at hsame ⊢
  simp only [readSource_nested hbare hrecords, hsame]

/-- **The fate of every member** is the same. -/
theorem fateOf_nested (hbare : (b.scope d).Bare) {f : RecordMap.Field}
    (hrecords : ∀ p, Path.parse? σ b.source text = some p → f.name = member →
      p.terminal.HoldRecords f.type) (i : Nat) :
    (b.apply (.mapNested member text none)).fateOf σ d i f =
      (b.apply (.mapPath member text)).fateOf σ d i f := by
  have hsearch : (b.apply (.mapNested member text none)).searchMember σ d i f =
      (b.apply (.mapPath member text)).searchMember σ d i f := by
    rw [searchMember_eq, searchMember_eq, apply, apply, settings_addOrigin, settings_addOrigin]
    by_cases hname : member = f.name
    · rw [if_pos hname, if_pos hname]
      dsimp only
      by_cases hnew : (b.settings member).origins = []
      · have hproduction := production_nested hbare (s := b.settings member)
          (fun p hp => hrecords p hp hname.symm) hnew
        have hproduction' : (b.addOrigin member (.nested text none)).production σ d f _ =
            (b.addOrigin member (.path text)).production σ d f _ := hproduction
        rw [hproduction']
        simp
      · -- Two sources are too many, whatever they are.
        have hseveral : ∀ o : Origin, 1 < ((b.settings member).origins ++ [o]).length := by
          intro o
          have := List.length_pos_iff.mpr hnew
          simp
          omega
        rw [if_pos (hseveral _), if_pos (hseveral _)]
    · rw [if_neg hname, if_neg hname]
      rfl
  unfold fateOf
  rw [hsearch]

/-- **The mapping resolves alike.** -/
theorem resolve_nested (hbare : (b.scope d).Bare)
    (hrecords : ∀ p, Path.parse? σ b.source text = some p → ∀ f ∈ σ.fields b.destination,
      f.name = member → p.terminal.HoldRecords f.type) (session : Session) :
    (b.apply (.mapNested member text none)).resolve σ d session =
      (b.apply (.mapPath member text)).resolve σ d session := by
  refine resolve_onMember ?_ ?_ session
  · intro m
    unfold problem?
    simp
  · intro i t ht
    exact fateOf_nested hbare (fun p hp => hrecords p hp t ht) i

/-! ## §2. A member that is to nest -/

/-- What is configured for a new member that is to nest. -/
theorem heeds_nested (text : String) (hheeded : b.ignores member = false)
    (hnew : b.origins member = []) :
    (b.apply (.mapNested member text none)).Heeds member ∧
      (b.apply (.mapNested member text none)).origin? member = some (.nested text none) := by
  have hsettings := settings_addOrigin b member member (.nested text none)
  rw [if_pos rfl] at hsettings
  rw [apply, ← origin?_settings, hsettings, origins_settings, hnew]
  refine ⟨⟨?_, ?_⟩, rfl⟩
  · rw [← ignored_settings, hsettings, ← hheeded, ← ignored_settings]
  · rw [← origins_settings, hsettings, origins_settings, hnew]
    simp

/-- **The fate of a member that is to nest**: with no nesting conversion it is rejected, with one
it is planned or has one other problem. -/
theorem fateOf_mapNested (hheeded : b.ignores member = false) (hnew : b.origins member = [])
    {f : RecordMap.Field} (hname : f.name = member) (hunset : b.constant? d none f.type = none)
    {p : Path} (hp : Path.parse? σ b.source text = some p) (i : Nat) :
    let verdict := (b.apply (.mapNested member text none)).fateOf σ d i f
    (Scope.nesting b.profile p.terminal f.type = none → verdict.1 = .rejected ∧
        verdict.2.problems = [.noConversion member (σ.name p.terminal) (σ.name f.type)]) ∧
      ∀ tree, Scope.nesting b.profile p.terminal f.type = some tree →
        (∃ plan sentinel, verdict.1 = .planned plan ∧
            plan.production = .read (.path p) tree sentinel ∧ verdict.2.problems = []) ∨
          verdict.1 = .rejected ∧ ((b.pairing ∈ tree.pairings ∧
            verdict.2.problems = [.selfReferentialNesting member (b.pairing.name σ)]) ∨
            ∃ reason, verdict.2.problems = [.constantConversion member reason]) := by
  intro verdict
  subst hname
  obtain ⟨hheeds, horigin⟩ := heeds_nested text hheeded hnew
  have hconstant : (b.apply (.mapNested f.name text none)).constant? d
      ((b.apply (.mapNested f.name text none)).origin? f.name) f.type = none := by
    rw [horigin]
    exact hunset
  have haccessor : (b.apply (.mapNested f.name text none)).accessor? σ d f.name
      ((b.apply (.mapNested f.name text none)).origin? f.name) = some (.path p) := by
    have hparse : Path.parse? σ (b.apply (.mapNested f.name text none)).source text = some p := hp
    rw [horigin, accessor?_of_text rfl, hparse]
    rfl
  have hconversion : (b.apply (.mapNested f.name text none)).conversion? d p.terminal f.type
      ((b.apply (.mapNested f.name text none)).origin? f.name) =
        Scope.nesting b.profile p.terminal f.type := by
    rw [horigin]
    rfl
  constructor
  · intro hnone
    exact fateOf_unread hheeds hconstant haccessor (hconversion.trans hnone) i
  · intro tree htree
    have hsource : (b.apply (.mapNested f.name text none)).source? σ d f.name f.type
        ((b.apply (.mapNested f.name text none)).origin? f.name) = some (.path p, tree) := by
      rw [source?_eq, haccessor, Option.bind_some, Accessor.type, hconversion, htree]
      rfl
    rcases fateOf_read hheeds hconstant hsource i with
      ⟨hown, hrejected, hproblems⟩ | ⟨-, ⟨sentinel, journal, -, hplan, hnone⟩ | hmisfits⟩
    · exact .inr ⟨hrejected, .inl ⟨hown, hproblems⟩⟩
    · exact .inl ⟨_, sentinel, hplan, rfl, hnone⟩
    · obtain ⟨v, reason, -, -, hrejected, hproblems⟩ := hmisfits
      exact .inr ⟨hrejected, .inr ⟨reason, hproblems⟩⟩

/-! ## §3. Agreement -/

/-- **Explicit and automatic nesting agree.**

Without converters and operators, the nesting conversion between two types that hold records of
different names in options and sequences is the one the search finds; there is none where the
search finds none.

So let a path end at such a type, or not exist, and let a member of such a type nest along it, or
only read along it.  The mapping resolves alike, and every member has the same fate with the same
notes.  If the path exists and feeds the member, then without a nesting conversion it is rejected,
for that reason alone.  With one it is planned with it, or rejected for another reason: the
conversion leads to the mapping itself, or the sentinel does not fit. -/
theorem nested_agrees (σ : Schema) (b : Config) (d : Defaults) (member text : String)
    (hbare : (b.scope d).Bare)
    (hrecords : ∀ p, Path.parse? σ b.source text = some p → ∀ f ∈ σ.fields b.destination,
      f.name = member → p.terminal.HoldRecords f.type) :
    let nested := b.apply (.mapNested member text none)
    let path := b.apply (.mapPath member text)
    (∀ S : Scope, S.Bare → ∀ r s : String, r ≠ s → ∀ W V : Wrapper,
        Scope.nesting S.profile (W.ty (.record r)) (V.ty (.record s)) =
          S.resolve (W.ty (.record r)) (V.ty (.record s))) ∧
      (∀ session, nested.resolve σ d session = path.resolve σ d session) ∧
      (∀ i, ∀ f ∈ σ.fields b.destination, nested.fateOf σ d i f = path.fateOf σ d i f) ∧
      ∀ p, Path.parse? σ b.source text = some p → b.ignores member = false →
        b.origins member = [] → ∀ i, ∀ f ∈ σ.fields b.destination, f.name = member →
        b.constant? d none f.type = none →
        let verdict := nested.fateOf σ d i f
        (Scope.nesting b.profile p.terminal f.type = none → verdict.1 = .rejected ∧
            verdict.2.problems = [.noConversion member (σ.name p.terminal) (σ.name f.type)]) ∧
          ∀ tree, Scope.nesting b.profile p.terminal f.type = some tree →
            (∃ plan sentinel, verdict.1 = .planned plan ∧
                plan.production = .read (.path p) tree sentinel ∧ verdict.2.problems = []) ∨
              verdict.1 = .rejected ∧ ((b.pairing ∈ tree.pairings ∧
                verdict.2.problems = [.selfReferentialNesting member (b.pairing.name σ)]) ∨
                ∃ reason, verdict.2.problems = [.constantConversion member reason]) := by
  intro nested path
  refine ⟨?_, resolve_nested hbare hrecords, ?_, ?_⟩
  · intro S hS r s hrs W V
    exact (hS.resolve_eq_nesting hrs W V).symm
  · intro i f hf
    exact fateOf_nested hbare (fun p hp => hrecords p hp f hf) i
  · intro p hp hheeded hnew i f _ hname hunset
    exact fateOf_mapNested hheeded hnew hname hunset hp i

/-- Folders with files and perhaps a parent, and archives of them. -/
def folderSchema : Schema where
  naming := ⟨"Text", "Option", "List"⟩
  record
    | "Folder" => { fields := [
        { name := "files", type := .seq (.record "File") },
        { name := "parent", type := .option (.record "Folder") }] }
    | "Archive" => { fields := [
        { name := "files", type := .option (.seq (.record "Entry")) },
        { name := "parent", type := .option (.record "Archive") }] }
    | _ => {}
  enum _ := { first := { name := "", underlying := 0 } }
  rank _ := 0
  contains_lt := by
    intro r r' h
    obtain ⟨f, hf, ht⟩ := h
    split at hf <;> simp at hf
    · rcases hf with rfl | rfl <;> cases ht
    · rcases hf with rfl | rfl <;> cases ht

/-- Archives of folders, with nothing configured. -/
def folderArchive : Config where
  source := "Folder"
  destination := "Archive"

/-- The files of an archive. -/
def archivedFiles : RecordMap.Field where
  name := "files"
  type := .option (.seq (.record "Entry"))

/-- Files are archived as a list that may be missing, by one setting as by the other. -/
theorem nested_agrees_files :
    let nested := folderArchive.apply (.mapNested "files" "files" none)
    let path := folderArchive.apply (.mapPath "files" "files")
    (folderArchive.scope {}).Bare ∧
      nested.fateOf folderSchema {} 0 archivedFiles = path.fateOf folderSchema {} 0 archivedFiles ∧
      ∃ plan sentinel, (nested.fateOf folderSchema {} 0 archivedFiles).1 = .planned plan ∧
        plan.production = .read
          (.path { head := 0, terminal := .seq (.record "File"), names := ["files"] })
          (.wrap (.seq (.record "Entry")) (.elements (.record "File") (.record "Entry")
            (.nested ⟨.record "File", .record "Entry", none⟩))) sentinel := by
  intro nested path
  have hbare : (folderArchive.scope {}).Bare := ⟨rfl, rfl, rfl⟩
  have hp : Path.parse? folderSchema folderArchive.source "files" =
      some { head := 0, terminal := .seq (.record "File"), names := ["files"] } := by
    decide +kernel
  have hfields : folderSchema.fields folderArchive.destination =
      [archivedFiles, { name := "parent", type := .option (.record "Archive") }] := rfl
  have hrecords : ∀ p, Path.parse? folderSchema folderArchive.source "files" = some p →
      ∀ f ∈ folderSchema.fields folderArchive.destination, f.name = "files" →
        p.terminal.HoldRecords f.type := by
    intro p hparsed f hf hname
    rw [hp] at hparsed
    cases hparsed
    rw [hfields] at hf
    rcases List.mem_cons.mp hf with rfl | hparent
    · exact ⟨"File", "Entry", .seq .bare, .option (.seq .bare), by decide, rfl, rfl⟩
    · rw [List.mem_singleton.mp hparent] at hname
      simp at hname
  have hmem : archivedFiles ∈ folderSchema.fields folderArchive.destination := by
    rw [hfields]
    exact List.mem_cons_self
  have htree : Scope.nesting folderArchive.profile (.seq (.record "File")) archivedFiles.type =
      some (.wrap (.seq (.record "Entry")) (.elements (.record "File") (.record "Entry")
        (.nested ⟨.record "File", .record "Entry", none⟩))) := by
    simp [Scope.nesting, folderArchive, archivedFiles]
  obtain ⟨-, -, hfates, hread⟩ :=
    nested_agrees folderSchema folderArchive {} "files" "files" hbare hrecords
  refine ⟨hbare, hfates 0 _ hmem, ?_⟩
  rcases (hread _ hp rfl rfl 0 _ hmem rfl rfl).2 _ htree with
    ⟨plan, sentinel, hplan, hproduction, -⟩ | ⟨hrejected, -⟩
  · exact ⟨plan, sentinel, hplan, hproduction⟩
  · have hplanned : ∃ plan, (nested.fateOf folderSchema {} 0 archivedFiles).1 = .planned plan :=
      ⟨_, by with_unfolding_all rfl⟩
    obtain ⟨plan, hplan⟩ := hplanned
    rw [hplan] at hrejected
    cases hrejected

/-- The parent has a nesting conversion, which leads to the mapping itself: it is neither planned
nor without a conversion, whether it is to nest or to read. -/
theorem nested_own_parent :
    Scope.nesting none (.option (.record "Folder")) (.option (.record "Archive")) =
        some (.unwrap (.record "Folder") (.wrap (.record "Archive")
          (.nested ⟨.record "Folder", .record "Archive", none⟩))) ∧
      ((folderArchive.apply (.mapNested "parent" "parent" none)).resolve folderSchema {}
          { pair := "" }).diagnostics =
        [.selfReferentialNesting "parent" "Folder -> Archive"] ∧
      ((folderArchive.apply (.mapPath "parent" "parent")).resolve folderSchema {}
          { pair := "" }).diagnostics =
        [.selfReferentialNesting "parent" "Folder -> Archive"] := by
  refine ⟨?_, ?_, ?_⟩
  · simp [Scope.nesting]
  · with_unfolding_all rfl
  · with_unfolding_all rfl

end Config

end RecordMap
