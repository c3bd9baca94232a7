import RecordMap.Path
import RecordMap.Proofs.Typing.Value

/-!
# Paths lead where they say

A path *leads* from a record to its terminal type when every step enters the
type reached so far and goes on to a readable member of the record entered.
Every path that is parsed or found leads (`Path.leads_parse?`,
`Path.leads_flatten?`).

Read from a well-typed record, a path that leads gives a well-typed value of its
terminal type, unless one of the options it opens is empty
(`Path.Leads.read?_eq_none_iff`).
-/

namespace RecordMap

namespace Path

variable {σ : Schema}

/-! ## §1. Paths that lead -/

/-- Steps from one type to another. -/
inductive StepsLead (σ : Schema) : List Step → Ty → Ty → Prop where
  | nil (t : Ty) : StepsLead σ [] t t
  | cons {t u : Ty} {opens : Bool} {r : String} {i : Nat} {f : RecordMap.Field} {rest : List Step}
      (enters : enters? t = some (opens, r)) (member : (σ.fields r)[i]? = some f)
      (readable : f.readable = true) (more : StepsLead σ rest f.type u) :
      StepsLead σ ({ opens, record := r, index := i } :: rest) t u

/-- **The path leads** from a record to its terminal type. -/
def Leads (σ : Schema) (source : String) (p : Path) : Prop :=
  ∃ f, (σ.fields source)[p.head]? = some f ∧ f.readable = true ∧
    StepsLead σ p.steps f.type p.terminal

theorem enters?_eq_some_iff {t : Ty} {opens : Bool} {r : String} :
    enters? t = some (opens, r) ↔
      (opens = false ∧ t = .record r) ∨ (opens = true ∧ t = .option (.record r)) := by
  constructor
  · intro h
    unfold enters? at h
    split at h <;> cases h
    · exact .inl ⟨rfl, rfl⟩
    · exact .inr ⟨rfl, rfl⟩
  · rintro (⟨rfl, rfl⟩ | ⟨rfl, rfl⟩) <;> rfl

theorem StepsLead.append {pre post : List Step} {t u w : Ty} (hpre : StepsLead σ pre t u)
    (hpost : StepsLead σ post u w) : StepsLead σ (pre ++ post) t w := by
  induction hpre with
  | nil t => exact hpost
  | cons enters member readable _ ih => exact .cons enters member readable (ih hpost)

/-! ## §2. Every path found leads -/

theorem leads_single {source : String} {i : Nat} {f : RecordMap.Field}
    (h : (i, f) ∈ readable σ source) : (single i f).Leads σ source := by
  obtain ⟨hmember, hreadable⟩ := mem_readable.mp h
  exact ⟨f, hmember, hreadable, .nil _⟩

theorem leads_extend {source : String} {p : Path} {opens : Bool} {r : String} {i : Nat}
    {f : RecordMap.Field} (hp : p.Leads σ source) (henters : enters? p.terminal = some (opens, r))
    (hf : (i, f) ∈ readable σ r) : (p.extend opens r i f).Leads σ source := by
  obtain ⟨g, hg, hread, hsteps⟩ := hp
  obtain ⟨hmember, hreadable⟩ := mem_readable.mp hf
  exact ⟨g, hg, hread, hsteps.append (.cons henters hmember hreadable (.nil _))⟩

theorem leads_of_mem_extensions {source : String} {n : Nat} {p q : Path} (hp : p.Leads σ source)
    (hq : q ∈ extensions σ n p) : q.Leads σ source := by
  -- By the depth that is left: every extension is one by a readable member.
  induction n generalizing p with
  | zero => cases hq
  | succ n ih =>
    unfold extensions at hq
    cases henters : enters? p.terminal with
    | none => rw [henters] at hq; cases hq
    | some entry =>
      obtain ⟨opens, r⟩ := entry
      rw [henters] at hq
      obtain ⟨⟨i, f⟩, hf, hmem⟩ := List.mem_flatMap.mp hq
      have hext := leads_extend hp henters hf
      rcases List.mem_cons.mp hmem with rfl | hlater
      · exact hext
      · exact ih hext hlater

/-- A flattened path leads. -/
theorem leads_flatten? {source target : String} {m : Matcher} {p : Path}
    (h : flatten? σ source target m = some p) : p.Leads σ source := by
  rw [flatten?_eq] at h
  have hmem := List.mem_of_find?_eq_some h
  obtain ⟨⟨i, f⟩, hf, hp⟩ := List.mem_flatMap.mp hmem
  exact leads_of_mem_extensions (leads_single hf) hp

theorem ofMember?_eq_some {source name : String} {p : Path} (h : ofMember? σ source name = some p) :
    ∃ i f, (σ.fields source)[i]? = some f ∧ f.name = name ∧ f.readable = true ∧ p = single i f := by
  unfold ofMember? at h
  obtain ⟨⟨f, i⟩, hfind, hp⟩ := Option.bind_eq_some_iff.mp h
  dsimp only at hp
  split at hp
  · cases hp
    have hmem := List.mem_zipIdx_iff_getElem?.mp (List.mem_of_find?_eq_some hfind)
    exact ⟨i, f, hmem, by simpa using List.find?_some hfind, ‹_›, rfl⟩
  · cases hp

/-- Members of a record with one name are one member. -/
theorem position_of_name {r : String} (distinct : ((σ.fields r).map (·.name)).Nodup) {i j : Nat}
    {f g : RecordMap.Field} (hf : (σ.fields r)[i]? = some f) (hg : (σ.fields r)[j]? = some g)
    (hname : f.name = g.name) : i = j := by
  have hlt : i < ((σ.fields r).map (·.name)).length := by
    simpa using (List.getElem?_eq_some_iff.mp hf).1
  refine (List.getElem?_inj hlt distinct).mp ?_
  simp [hf, hg, hname]

theorem ofMember?_of_member {r : String} (distinct : ((σ.fields r).map (·.name)).Nodup)
    {i : Nat} {f : RecordMap.Field} (hmember : (σ.fields r)[i]? = some f) (hreadable : f.readable = true) :
    ofMember? σ r f.name = some (single i f) := by
  have hfound : ((σ.fields r).zipIdx.find? (·.1.name == f.name)).isSome = true := by
    rw [List.find?_isSome]
    exact ⟨(f, i), List.mem_zipIdx_iff_getElem?.mpr hmember, by simp⟩
  obtain ⟨⟨g, j⟩, hg⟩ := Option.isSome_iff_exists.mp hfound
  have hmember' : (σ.fields r)[j]? = some g :=
    List.mem_zipIdx_iff_getElem?.mp (List.mem_of_find?_eq_some hg)
  have hname : g.name = f.name := by simpa using List.find?_some hg
  have hposition := position_of_name distinct hmember' hmember hname
  subst hposition
  rw [hmember] at hmember'
  cases hmember'
  simp [ofMember?, hg, hreadable]

theorem leads_ofMember? {source name : String} {p : Path} (h : ofMember? σ source name = some p) :
    p.Leads σ source := by
  obtain ⟨i, f, hf, -, hread, rfl⟩ := ofMember?_eq_some h
  exact ⟨f, hf, hread, .nil _⟩

theorem stepsLead_follow? {names : List String} {t u : Ty} {steps : List Step}
    (h : follow? σ names t = some (steps, u)) : StepsLead σ steps t u := by
  -- The steps are looked up one name at a time, and so are they put together.
  induction names generalizing t steps with
  | nil =>
    cases h
    exact .nil _
  | cons name rest ih =>
    unfold follow? at h
    obtain ⟨⟨opens, r⟩, henters, h⟩ := Option.bind_eq_some_iff.mp h
    obtain ⟨⟨i, f⟩, hfind, h⟩ := Option.bind_eq_some_iff.mp h
    obtain ⟨⟨more, terminal⟩, hmore, h⟩ := Option.bind_eq_some_iff.mp h
    cases h
    obtain ⟨hmember, hreadable⟩ := mem_readable.mp (List.mem_of_find?_eq_some hfind)
    exact .cons henters hmember hreadable (ih hmore)

/-- **An explicit path leads.** -/
theorem leads_parse? {source text : String} {p : Path} (h : parse? σ source text = some p) :
    p.Leads σ source := by
  unfold parse? at h
  split at h
  · cases h
  · rename_i first rest _
    obtain ⟨start, hstart, h⟩ := Option.bind_eq_some_iff.mp h
    obtain ⟨⟨steps, terminal⟩, hsteps, h⟩ := Option.bind_eq_some_iff.mp h
    cases h
    obtain ⟨i, f, hf, -, hread, rfl⟩ := ofMember?_eq_some hstart
    exact ⟨f, hf, hread, stepsLead_follow? hsteps⟩

/-! ## §3. Reading along a path -/

/-- An option to be opened on the way is empty. -/
def BreaksOn (σ : Schema) (source : String) (v : Value) (p : Path) : Prop :=
  ∃ pre s post t, p.steps = pre ++ s :: post ∧ s.opens = true ∧
    (v.member? σ source p.head).bind (readSteps? σ pre) = some (.absent t)

theorem readSteps?_append (pre post : List Step) (v : Value) :
    readSteps? σ (pre ++ post) v = (readSteps? σ pre v).bind (readSteps? σ post) := by
  induction pre generalizing v with
  | nil => rfl
  | cons s rest ih =>
    show (s.read? σ v).bind (readSteps? σ (rest ++ post)) =
      ((s.read? σ v).bind (readSteps? σ rest)).bind (readSteps? σ post)
    rw [Option.bind_assoc]
    congr 1
    funext w
    exact ih w

/-- A step from a well-typed value goes on, or has an empty option to open. -/
theorem read?_step {t : Ty} {opens : Bool} {r : String} {i : Nat} {f : RecordMap.Field} {v : Value}
    (henters : enters? t = some (opens, r)) (hf : (σ.fields r)[i]? = some f)
    (hread : f.readable = true) (hv : v.HasType σ t) :
    (∃ w, Step.read? σ { opens, record := r, index := i } v = some w ∧ w.HasType σ f.type) ∨
      (opens = true ∧ v = .absent (.record r)) := by
  rcases enters?_eq_some_iff.mp henters with ⟨rfl, rfl⟩ | ⟨rfl, rfl⟩
  · exact .inl (hv.member? hf hread)
  · rcases hv.option_cases with rfl | ⟨u, rfl, hu⟩
    · exact .inr ⟨rfl, rfl⟩
    · obtain ⟨w, hw, hwt⟩ := hu.member? hf hread
      refine .inl ⟨w, ?_, hwt⟩
      simp [Step.read?, Value.content?_present hu.type_eq, hw]

/-- Steps that lead go to the end, or stop at an empty option. -/
theorem StepsLead.readSteps? {steps : List Step} {t u : Ty} (h : StepsLead σ steps t u) {v : Value}
    (hv : v.HasType σ t) :
    (∃ w, Path.readSteps? σ steps v = some w ∧ w.HasType σ u) ∨
      ∃ pre s post a, steps = pre ++ s :: post ∧ s.opens = true ∧
        Path.readSteps? σ pre v = some (.absent a) := by
  -- What has been read so far has the type reached so far.
  induction h generalizing v with
  | nil t => exact .inl ⟨v, rfl, hv⟩
  | @cons t u opens r i f rest enters member readable more ih =>
    rcases read?_step enters member readable hv with ⟨w, hw, hwt⟩ | ⟨hopens, habsent⟩
    · rcases ih hwt with ⟨x, hx, hxt⟩ | ⟨pre, s, post, a, hsplit, hs, hpre⟩
      · refine .inl ⟨x, ?_, hxt⟩
        rw [Path.readSteps?, hw]
        exact hx
      · refine .inr ⟨_ :: pre, s, post, a, by rw [hsplit]; rfl, hs, ?_⟩
        rw [Path.readSteps?, hw]
        exact hpre
    · exact .inr ⟨[], _, rest, _, rfl, hopens, by rw [habsent]; rfl⟩

variable {source : String} {p : Path} {v : Value}

theorem Leads.read? (hp : p.Leads σ source) (hv : v.HasType σ (.record source)) :
    (∃ w, p.read? σ source v = some w ∧ w.HasType σ p.terminal) ∨ p.BreaksOn σ source v := by
  obtain ⟨f, hf, hread, hsteps⟩ := hp
  obtain ⟨w, hw, hwt⟩ := hv.member? hf hread
  rcases hsteps.readSteps? hwt with ⟨x, hx, hxt⟩ | ⟨pre, s, post, a, hsplit, hs, hpre⟩
  · refine .inl ⟨x, ?_, hxt⟩
    rw [Path.read?, hw]
    exact hx
  · refine .inr ⟨pre, s, post, a, hsplit, hs, ?_⟩
    rw [hw]
    exact hpre

theorem read?_of_breaksOn (h : p.BreaksOn σ source v) : p.read? σ source v = none := by
  obtain ⟨pre, s, post, t, hsplit, hs, hpre⟩ := h
  have hstop : s.read? σ (.absent t) = none := by
    unfold Step.read?
    rw [if_pos hs]
    rfl
  rw [Path.read?, hsplit]
  cases hw : v.member? σ source p.head with
  | none => rfl
  | some w =>
    rw [hw] at hpre
    show Path.readSteps? σ (pre ++ s :: post) w = none
    -- Nothing comes after the step that has an empty option to open.
    rw [readSteps?_append, show Path.readSteps? σ pre w = some (.absent t) from hpre]
    show (s.read? σ (.absent t)).bind _ = none
    rw [hstop]
    rfl

/-- **Reading along a path** gives nothing exactly when an option to be opened is
empty. -/
theorem Leads.read?_eq_none_iff (hp : p.Leads σ source) (hv : v.HasType σ (.record source)) :
    p.read? σ source v = none ↔ p.BreaksOn σ source v := by
  constructor
  · intro hnone
    rcases hp.read? hv with ⟨w, hw, _⟩ | hbreaks
    · rw [hnone] at hw
      cases hw
    · exact hbreaks
  · exact read?_of_breaksOn

/-- What is read has the type of the path. -/
theorem Leads.hasType_read? (hp : p.Leads σ source) (hv : v.HasType σ (.record source)) {w : Value}
    (hw : p.read? σ source v = some w) : w.HasType σ p.terminal := by
  rcases hp.read? hv with ⟨x, hx, hxt⟩ | hbreaks
  · rw [hw] at hx
    cases hx
    exact hxt
  · rw [read?_of_breaksOn hbreaks] at hw
    cases hw

theorem mayBreak_of_breaksOn (h : p.BreaksOn σ source v) : p.mayBreak = true := by
  obtain ⟨pre, s, post, _, hsplit, hs, _⟩ := h
  unfold mayBreak
  rw [List.any_eq_true]
  exact ⟨s, by rw [hsplit]; simp, hs⟩

end Path

end RecordMap
