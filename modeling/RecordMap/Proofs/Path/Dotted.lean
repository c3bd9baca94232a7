import RecordMap.Proofs.Path.Flattened

/-!
# Dotted paths

A dotted text is read from left to right, and a flattened path comes out of a search with
backtracking.  Where the members of each record have names of their own, without dots, the two
agree: the written form of every flattened path, and of every single member, reads as that path
(`Path.dotted_agrees`).

A text is accepted exactly when its segments name a chain.  What is read along the path is what
lies at its segments in the value (`Path.Lies`), and nothing is read exactly when an empty option
lies before the last of them (`Path.Blocked`).
-/

namespace RecordMap

/-! ## §1. Segments -/

namespace Text

variable {separator : Char}

theorem split_of_not_mem {cs : List Char} (h : separator ∉ cs) : split separator cs = [cs] := by
  induction cs with
  | nil => rfl
  | cons c cs ih =>
    rw [List.mem_cons, not_or] at h
    rw [split, if_neg (Ne.symm h.1), ih h.2]

theorem split_append {cs : List Char} (h : separator ∉ cs) (rest : List Char) :
    split separator (cs ++ separator :: rest) = cs :: split separator rest := by
  induction cs with
  | nil => rw [List.nil_append, split, if_pos rfl]
  | cons c cs ih =>
    rw [List.mem_cons, not_or] at h
    rw [List.cons_append, split, if_neg (Ne.symm h.1), ih h.2]

/-- Segments without the separator are told apart again. -/
theorem split_intercalate {css : List (List Char)} (hne : css ≠ [])
    (h : ∀ cs ∈ css, separator ∉ cs) : split separator ([separator].intercalate css) = css := by
  induction css with
  | nil => exact absurd rfl hne
  | cons cs css ih =>
    obtain ⟨hcs, hrest⟩ := List.forall_mem_cons.mp h
    cases css with
    | nil => simpa using split_of_not_mem hcs
    | cons ds css =>
      rw [List.intercalate_cons_cons, List.append_assoc, List.singleton_append, split_append hcs,
        ih (by simp) hrest]

/-- Nothing is lost in a cut. -/
theorem intercalate_split (separator : Char) (cs : List Char) :
    [separator].intercalate (split separator cs) = cs := by
  induction cs with
  | nil => rfl
  | cons c cs ih =>
    unfold split
    cases hsplit : split separator cs with
    | nil => exact absurd hsplit (split_ne_nil separator cs)
    | cons first rest =>
      rw [hsplit] at ih
      by_cases hc : c = separator
      · rw [if_pos hc, List.intercalate_cons_cons, ih, hc]
        rfl
      · rw [if_neg hc]
        cases rest with
        | nil => simpa using ih
        | cons second rest =>
          rw [List.intercalate_cons_cons] at ih ⊢
          rw [← ih]
          rfl

theorem toList_join (names : List String) :
    (join "." names).toList = ['.'].intercalate (names.map String.toList) :=
  String.toList_intercalate

/-- **Names without dots** are the segments of their dotted text. -/
theorem segments_join {names : List String} (hne : names ≠ [])
    (h : ∀ name ∈ names, '.' ∉ name.toList) : segments (join "." names) = names := by
  unfold segments
  rw [toList_join, split_intercalate (by simpa using hne) (by simpa using h), List.map_map]
  simp

/-- **A text is its segments** with dots between them. -/
theorem join_segments (s : String) : join "." (segments s) = s := by
  have hchars : (join "." (segments s)).toList = s.toList := by
    unfold segments
    rw [toList_join, List.map_map]
    simpa using intercalate_split '.' s.toList
  exact String.toList_inj.mp hchars

end Text

namespace Path

variable {σ : Schema} {source : String}

/-! ## §2. A chain has one path -/

theorem Chain.mem_fields {chain : List (Nat × Field)} {r : String} (h : Chain σ r chain)
    {x : Nat × Field} (hx : x ∈ chain) : ∃ r', x.2 ∈ σ.fields r' := by
  induction h with
  | last member _ =>
    cases List.mem_singleton.mp hx
    exact ⟨_, List.mem_of_getElem? member⟩
  | link member _ _ _ ih =>
    rcases List.mem_cons.mp hx with rfl | hlater
    · exact ⟨_, List.mem_of_getElem? member⟩
    · exact ih hlater

/-- **There is one path along a chain.** -/
theorem Along.unique {chain : List (Nat × Field)} {p q : Path} (hp : Along chain p)
    (hq : Along chain q) : p = q := by
  have hpositions : p.head :: p.steps.map (·.index) = q.head :: q.steps.map (·.index) :=
    hp.positions.trans hq.positions.symm
  obtain ⟨hhead, hindices⟩ := List.cons.inj hpositions
  have hsteps : p.steps = q.steps := by
    apply List.ext_getElem?
    intro k
    have hindex : p.steps[k]?.map (·.index) = q.steps[k]?.map (·.index) := by
      simpa using congrArg (fun indices : List Nat => indices[k]?) hindices
    cases hs : p.steps[k]? with
    | none =>
      rw [hs] at hindex
      simpa using hindex.symm
    | some s =>
      rw [hs] at hindex
      obtain ⟨s', hs', hsame⟩ := Option.map_eq_some_iff.mp hindex.symm
      -- Both steps leave one member, so they open and enter the same.
      obtain ⟨x, hx, hopens, hrecord⟩ := hp.steps k s hs
      obtain ⟨x', hx', hopens', hrecord'⟩ := hq.steps k s' hs'
      rw [hx] at hx'
      cases hx'
      rw [hrecord] at hrecord'
      rw [hs']
      cases s
      cases s'
      simp_all
  have hterminal : p.terminal = q.terminal :=
    Option.some.inj (hp.terminal.symm.trans hq.terminal)
  have hnames : p.names = q.names := hp.names.trans hq.names.symm
  cases p
  cases q
  simp_all

/-- A single member is a path along the chain of that member. -/
theorem along_of_ofMember? {name : String} {p : Path} (h : ofMember? σ source name = some p) :
    ∃ i f, Chain σ source [(i, f)] ∧ Along [(i, f)] p := by
  obtain ⟨i, f, hmember, -, hreadable, rfl⟩ := ofMember?_eq_some h
  exact ⟨i, f, .last hmember hreadable, along_single i f⟩

/-- **A flattened path is along a chain.** -/
theorem along_of_flatten? {target : String} {m : Matcher} {p : Path}
    (h : flatten? σ source target m = some p) :
    ∃ chain, Chain σ source chain ∧ Along chain p := by
  rw [flatten?_eq] at h
  obtain ⟨chain, hfits, halong⟩ :=
    fits_of_candidate (List.mem_of_find?_eq_some h) (List.find?_some h)
  exact ⟨chain, hfits.readable, halong⟩

/-! ## §3. A text reads along the chain it names -/

theorem find?_readable {r : String} (distinct : ((σ.fields r).map (·.name)).Nodup)
    {i : Nat} {f : Field} (hmember : (σ.fields r)[i]? = some f) (hreadable : f.readable = true) :
    (readable σ r).find? (·.2.name == f.name) = some (i, f) := by
  have hfound : ((readable σ r).find? (·.2.name == f.name)).isSome = true := by
    rw [List.find?_isSome]
    exact ⟨(i, f), mem_readable.mpr ⟨hmember, hreadable⟩, by simp⟩
  obtain ⟨⟨j, g⟩, hg⟩ := Option.isSome_iff_exists.mp hfound
  obtain ⟨hmember', -⟩ := mem_readable.mp (List.mem_of_find?_eq_some hg)
  have hname : g.name = f.name := by simpa using List.find?_some hg
  have hposition := position_of_name distinct hmember' hmember hname
  subst hposition
  rw [hmember] at hmember'
  cases hmember'
  exact hg

/-- **Names that are followed** are those of a chain, from the record entered. -/
theorem chain_of_follow? {names : List String} {t u : Ty} {steps : List Step}
    (h : follow? σ names t = some (steps, u)) :
    ∃ chain, chain.map (·.2.name) = names ∧
      (chain = [] ∨ ∃ r, Enters t r ∧ Chain σ r chain) := by
  induction names generalizing t steps with
  | nil => exact ⟨[], rfl, .inl rfl⟩
  | cons name names ih =>
    unfold follow? at h
    obtain ⟨⟨opens, r⟩, henters, h⟩ := Option.bind_eq_some_iff.mp h
    obtain ⟨⟨i, f⟩, hfind, h⟩ := Option.bind_eq_some_iff.mp h
    obtain ⟨⟨more, terminal⟩, hmore, h⟩ := Option.bind_eq_some_iff.mp h
    cases h
    obtain ⟨hmember, hreadable⟩ := mem_readable.mp (List.mem_of_find?_eq_some hfind)
    have hname : f.name = name := by simpa using List.find?_some hfind
    obtain ⟨chain, hnames, hchain⟩ := ih hmore
    refine ⟨(i, f) :: chain, by simp [hname, hnames], .inr ⟨r, (enters_of_enters? henters).1, ?_⟩⟩
    exact chain_cons.mpr ⟨hmember, hreadable, hchain⟩

/-- **A text that is read** names a chain. -/
theorem chain_of_parse? {text : String} {p : Path} (h : parse? σ source text = some p) :
    p.names = Text.segments text ∧
      ∃ chain, Chain σ source chain ∧ chain.map (·.2.name) = Text.segments text := by
  unfold parse? at h
  split at h
  · cases h
  · rename_i first rest hsegments
    obtain ⟨start, hstart, h⟩ := Option.bind_eq_some_iff.mp h
    obtain ⟨⟨steps, terminal⟩, hsteps, h⟩ := Option.bind_eq_some_iff.mp h
    cases h
    obtain ⟨i, f, hmember, hname, hreadable, rfl⟩ := ofMember?_eq_some hstart
    obtain ⟨chain, hnames, hchain⟩ := chain_of_follow? hsteps
    refine ⟨hsegments.symm, (i, f) :: chain, chain_cons.mpr ⟨hmember, hreadable, hchain⟩, ?_⟩
    simp [hsegments, hname, hnames]

variable (distinct : ∀ r, ((σ.fields r).map (·.name)).Nodup)

include distinct

/-- **The names of a chain are followed** along it. -/
theorem follow?_of_chain {pre rest : List (Nat × Field)} {x : Nat × Field} {p : Path} {r : String}
    (hp : Along (pre ++ [x]) p) (henters : Enters x.2.type r) (hchain : Chain σ r rest) :
    ∃ steps u, follow? σ (rest.map (·.2.name)) x.2.type = some (steps, u) ∧
      Along (pre ++ x :: rest) { p with steps := p.steps ++ steps, terminal := u,
                                        names := p.names ++ rest.map (·.2.name) } := by
  induction rest generalizing pre x p r with
  | nil => cases hchain
  | cons y rest ih =>
    obtain ⟨hmember, hreadable, hmore⟩ := chain_cons.mp hchain
    have hfind := find?_readable (distinct r) hmember hreadable
    have hnext := hp.extend (enters_iff.mp henters) y.1 y.2
    rcases hmore with rfl | ⟨r', henters', hchain'⟩
    · refine ⟨[{ opens := x.2.type.isNullable, record := r, index := y.1 }], y.2.type, ?_, ?_⟩
      · simp [follow?, enters_iff.mp henters, hfind]
      · simpa [Path.extend] using hnext
    · obtain ⟨steps, u, hsteps, halong⟩ := ih hnext henters' hchain'
      refine ⟨{ opens := x.2.type.isNullable, record := r, index := y.1 } :: steps, u, ?_, ?_⟩
      · simp [follow?, enters_iff.mp henters, hfind, hsteps]
      · simpa [Path.extend] using halong

/-- **A chain is read from its dotted names**, and the path is along it. -/
theorem parse?_of_chain {chain : List (Nat × Field)} {text : String} (hchain : Chain σ source chain)
    (hnames : chain.map (·.2.name) = Text.segments text) :
    ∃ p, parse? σ source text = some p ∧ Along chain p := by
  cases chain with
  | nil => cases hchain
  | cons x rest =>
    obtain ⟨hmember, hreadable, hmore⟩ := chain_cons.mp hchain
    have hstart := ofMember?_of_member (distinct source) hmember hreadable
    have hsingle : Along ([] ++ [x]) (single x.1 x.2) := along_single x.1 x.2
    unfold parse?
    rw [← hnames]
    rcases hmore with rfl | ⟨r, henters, hchain'⟩
    · exact ⟨single x.1 x.2, by simp [hstart, follow?, single], hsingle⟩
    · obtain ⟨steps, u, hsteps, halong⟩ := follow?_of_chain distinct hsingle henters hchain'
      refine ⟨_, ?_, halong⟩
      simp [hstart, single, hsteps]

/-- **What is along a chain is read from its written form.** -/
theorem parse?_display (undotted : ∀ r, ∀ f ∈ σ.fields r, '.' ∉ f.name.toList)
    {chain : List (Nat × Field)} {p : Path} (hchain : Chain σ source chain) (hp : Along chain p) :
    parse? σ source p.display = some p := by
  have hnames : chain.map (·.2.name) = Text.segments p.display := by
    rw [display, hp.names, Text.segments_join]
    · cases hchain <;> simp
    · intro name hname
      obtain ⟨x, hx, rfl⟩ := List.mem_map.mp hname
      obtain ⟨r, hf⟩ := hchain.mem_fields hx
      exact undotted r x.2 hf
  obtain ⟨q, hq, halong⟩ := parse?_of_chain distinct hchain hnames
  rw [hq, halong.unique hp]

omit distinct

/-! ## §4. What lies at names in a value -/

/-- **The value at names** in a value: each name is that of a member of the record reached so
far, and an option with a value in it is entered. -/
inductive Lies (σ : Schema) : List String → Value → Value → Prop where
  | here (v : Value) : Lies σ [] v v
  | member {r : String} {i : Nat} {f : Field} {members : List Value} {names : List String}
      {v w : Value} (declared : (σ.fields r)[i]? = some f) (held : members[i]? = some v)
      (more : Lies σ names v w) : Lies σ (f.name :: names) (.record r members) w
  | content {name : String} {names : List String} {v w : Value}
      (more : Lies σ (name :: names) v w) : Lies σ (name :: names) (.present v) w

/-- **Names are blocked** in a value: before the last of them lies an empty option. -/
inductive Blocked (σ : Schema) : List String → Value → Prop where
  | empty (name : String) (names : List String) (t : Ty) : Blocked σ (name :: names) (.absent t)
  | member {r : String} {i : Nat} {f : Field} {members : List Value} {names : List String}
      {v : Value} (declared : (σ.fields r)[i]? = some f) (held : members[i]? = some v)
      (more : Blocked σ names v) : Blocked σ (f.name :: names) (.record r members)
  | content {name : String} {names : List String} {v : Value}
      (more : Blocked σ (name :: names) v) : Blocked σ (name :: names) (.present v)

/-- One value of a record lies under one name. -/
theorem held_of_name (distinct : ∀ r, ((σ.fields r).map (·.name)).Nodup) {r : String} {i j : Nat}
    {f g : Field} {members : List Value} {v w : Value} (hf : (σ.fields r)[i]? = some f)
    (hg : (σ.fields r)[j]? = some g) (hname : f.name = g.name) (hv : members[i]? = some v)
    (hw : members[j]? = some w) : v = w := by
  have hposition := position_of_name (distinct r) hf hg hname
  subst hposition
  rw [hv] at hw
  exact Option.some.inj hw

/-- **One value lies at names.** -/
theorem Lies.unique (distinct : ∀ r, ((σ.fields r).map (·.name)).Nodup) {names : List String}
    {v w w' : Value} (h : Lies σ names v w) (h' : Lies σ names v w') : w = w' := by
  induction h with
  | here v =>
    cases h'
    rfl
  | member declared held _ ih =>
    generalize hnames : _ :: _ = names at h'
    generalize hrecord : Value.record _ _ = v at h'
    cases h' with
    | here => cases hnames
    | member declared' held' more' =>
      obtain ⟨hname, rfl⟩ := List.cons.inj hnames
      cases hrecord
      rw [held_of_name distinct declared declared' hname held held'] at ih
      exact ih more'
    | content => cases hrecord
  | content _ ih =>
    cases h' with
    | content more' => exact ih more'

/-- Nothing lies at names that are blocked. -/
theorem Lies.not_blocked (distinct : ∀ r, ((σ.fields r).map (·.name)).Nodup)
    {names : List String} {v w : Value} (h : Lies σ names v w) : ¬ Blocked σ names v := by
  intro hblocked
  induction h with
  | here => cases hblocked
  | member declared held _ ih =>
    generalize hnames : _ :: _ = names at hblocked
    generalize hrecord : Value.record _ _ = v at hblocked
    cases hblocked with
    | empty => cases hrecord
    | member declared' held' more' =>
      obtain ⟨hname, rfl⟩ := List.cons.inj hnames
      cases hrecord
      rw [held_of_name distinct declared declared' hname held held'] at ih
      exact ih more'
    | content => cases hrecord
  | content _ ih =>
    cases hblocked with
    | content more' => exact ih more'

/-! ## §5. Reading what lies at the names -/

/-- What lies under a member of a record lies in the record, behind the name of the member. -/
theorem lies_of_member? {r : String} {i : Nat} {f : Field} {v w : Value}
    (hf : (σ.fields r)[i]? = some f) (hw : v.member? σ r i = some w) (names : List String) :
    (∀ x, Lies σ names w x → Lies σ (f.name :: names) v x) ∧
      (Blocked σ names w → Blocked σ (f.name :: names) v) := by
  unfold Value.member? at hw
  obtain ⟨members, hmembers, hw⟩ := Option.bind_eq_some_iff.mp hw
  obtain ⟨g, -, hw⟩ := Option.bind_eq_some_iff.mp hw
  have hheld : members[i]? = some w := by
    split at hw
    · exact hw
    · cases hw
  unfold Value.members? at hmembers
  split at hmembers
  · split at hmembers
    · rename_i hname
      subst hname
      cases hmembers
      exact ⟨fun x => .member hf hheld, .member hf hheld⟩
    · cases hmembers
  · cases hmembers

/-- The same for a step, which may open an option before. -/
theorem lies_of_step {opens : Bool} {r : String} {i : Nat} {f : Field} {v w : Value}
    (hf : (σ.fields r)[i]? = some f)
    (hw : Step.read? σ { opens, record := r, index := i } v = some w) (names : List String) :
    (∀ x, Lies σ names w x → Lies σ (f.name :: names) v x) ∧
      (Blocked σ names w → Blocked σ (f.name :: names) v) := by
  cases opens with
  | false => exact lies_of_member? hf hw names
  | true =>
    obtain ⟨u, hu, hw⟩ := Option.bind_eq_some_iff.mp hw
    cases v with
    | present held =>
      obtain ⟨-, rfl⟩ := Value.as?_eq_some_iff.mp hu
      obtain ⟨hlies, hblocked⟩ := lies_of_member? hf hw names
      exact ⟨fun x hx => .content (hlies x hx), fun h => .content (hblocked h)⟩
    | _ => cases hu

/-- **Following names** reads what lies at them, or they are blocked. -/
theorem lies_or_blocked_of_follow? {names : List String} {t u : Ty} {steps : List Step}
    (h : follow? σ names t = some (steps, u)) {v : Value} (hv : v.HasType σ t) :
    (∃ w, readSteps? σ steps v = some w ∧ Lies σ names v w) ∨
      (readSteps? σ steps v = none ∧ Blocked σ names v) := by
  -- By the names: what has been read so far has the type reached so far.
  induction names generalizing t steps v with
  | nil =>
    cases h
    exact .inl ⟨v, rfl, .here v⟩
  | cons name names ih =>
    unfold follow? at h
    obtain ⟨⟨opens, r⟩, henters, h⟩ := Option.bind_eq_some_iff.mp h
    obtain ⟨⟨i, f⟩, hfind, h⟩ := Option.bind_eq_some_iff.mp h
    obtain ⟨⟨more, terminal⟩, hmore, h⟩ := Option.bind_eq_some_iff.mp h
    cases h
    obtain ⟨hmember, hreadable⟩ := mem_readable.mp (List.mem_of_find?_eq_some hfind)
    have hname : f.name = name := by simpa using List.find?_some hfind
    subst hname
    rw [readSteps?]
    rcases read?_step henters hmember hreadable hv with ⟨w, hw, hwt⟩ | ⟨hopens, habsent⟩
    · obtain ⟨hlies, hblocked⟩ := lies_of_step hmember hw names
      rw [hw]
      rcases ih hmore hwt with ⟨x, hx, hxlies⟩ | ⟨hnone, hstop⟩
      · exact .inl ⟨x, hx, hlies x hxlies⟩
      · exact .inr ⟨hnone, hblocked hstop⟩
    · subst hopens habsent
      exact .inr ⟨rfl, .empty f.name names _⟩

/-- **Reading along an explicit path** reads what lies at its segments, or they are blocked. -/
theorem lies_or_blocked_of_parse? {text : String} {p : Path} (h : parse? σ source text = some p)
    {v : Value} (hv : v.HasType σ (.record source)) :
    (∃ w, p.read? σ source v = some w ∧ Lies σ (Text.segments text) v w) ∨
      (p.read? σ source v = none ∧ Blocked σ (Text.segments text) v) := by
  unfold parse? at h
  split at h
  · cases h
  · rename_i first rest hsegments
    obtain ⟨start, hstart, h⟩ := Option.bind_eq_some_iff.mp h
    obtain ⟨⟨steps, terminal⟩, hsteps, h⟩ := Option.bind_eq_some_iff.mp h
    cases h
    obtain ⟨i, f, hmember, hname, hreadable, rfl⟩ := ofMember?_eq_some hstart
    subst hname
    obtain ⟨w, hw, hwt⟩ := hv.member? hmember hreadable
    have hread : v.member? σ source (single i f).head = some w := hw
    obtain ⟨hlies, hblocked⟩ := lies_of_member? hmember hw rest
    rw [hsegments, read?, hread]
    rcases lies_or_blocked_of_follow? hsteps hwt with ⟨x, hx, hxlies⟩ | ⟨hnone, hstop⟩
    · exact .inl ⟨x, hx, hlies x hxlies⟩
    · exact .inr ⟨hnone, hblocked hstop⟩

/-! ## §6. Agreement -/

/-- **Flattened paths, single members and dotted texts agree**, where the members of each
record have names of their own, without dots.

Every flattened path and every single member is read again from its written form.  A text is
read exactly when its segments name a chain: each is a readable member of the record reached so
far, options over records being entered.  The path is written as the text.  Read in a value of
the source, it gives nothing exactly when an empty option lies before the last segment, and else
the value that lies at the segments. -/
theorem dotted_agrees (σ : Schema) (source : String)
    (distinct : ∀ r, ((σ.fields r).map (·.name)).Nodup)
    (undotted : ∀ r, ∀ f ∈ σ.fields r, '.' ∉ f.name.toList) :
    (∀ p, (∃ target m, flatten? σ source target m = some p) ∨
        (∃ name, ofMember? σ source name = some p) → parse? σ source p.display = some p) ∧
      (∀ text, (parse? σ source text).isSome = true ↔
        ∃ chain, Chain σ source chain ∧ chain.map (·.2.name) = Text.segments text) ∧
      ∀ text p, parse? σ source text = some p → p.display = text ∧
        ∀ v, v.HasType σ (.record source) →
          (p.read? σ source v = none ↔ Blocked σ (Text.segments text) v) ∧
          ∀ w, p.read? σ source v = some w ↔ Lies σ (Text.segments text) v w := by
  refine ⟨?_, ?_, ?_⟩
  · intro p hp
    have halong : ∃ chain, Chain σ source chain ∧ Along chain p := by
      rcases hp with ⟨target, m, hflat⟩ | ⟨name, hmember⟩
      · exact along_of_flatten? hflat
      · obtain ⟨i, f, hchain, halong⟩ := along_of_ofMember? hmember
        exact ⟨_, hchain, halong⟩
    obtain ⟨chain, hchain, halong⟩ := halong
    exact parse?_display distinct undotted hchain halong
  · intro text
    constructor
    · intro h
      obtain ⟨p, hp⟩ := Option.isSome_iff_exists.mp h
      exact (chain_of_parse? hp).2
    · intro h
      obtain ⟨chain, hchain, hnames⟩ := h
      obtain ⟨p, hp, -⟩ := parse?_of_chain distinct hchain hnames
      simp [hp]
  · intro text p hp
    constructor
    · rw [display, (chain_of_parse? hp).1]
      exact Text.join_segments text
    · intro v hv
      rcases lies_or_blocked_of_parse? hp hv with ⟨x, hx, hlies⟩ | ⟨hnone, hblocked⟩
      · rw [hx]
        refine ⟨⟨?_, ?_⟩, fun w => ⟨?_, ?_⟩⟩
        · intro h
          cases h
        · intro h
          exact absurd h (hlies.not_blocked distinct)
        · intro h
          cases h
          exact hlies
        · intro hw
          rw [hlies.unique distinct hw]
      · rw [hnone]
        refine ⟨⟨fun _ => hblocked, fun _ => rfl⟩, fun w => ⟨?_, ?_⟩⟩
        · intro h
          cases h
        · intro hw
          exact absurd hblocked (hw.not_blocked distinct)

/-- A person without friends. -/
def loner : Value :=
  .record "Person" [.text "", .text "Ada", .absent (.record "Person"), .absent (.record "Person")]

/-- A person whose only friend is the loner. -/
def visitor : Value :=
  .record "Person" [.text "", .text "Bob", .present loner, .absent (.record "Person")]

theorem hasType_visitor : visitor.HasType friendSchema (.record "Person") := by
  have hloner : loner.HasType friendSchema (.record "Person") := by
    refine .record rfl ?_
    intro i v f hv hf
    match i with
    | 0 => cases hv; cases hf; exact .text _
    | 1 => cases hv; cases hf; exact .text _
    | 2 => cases hv; cases hf; exact .absent _
    | 3 => cases hv; cases hf; exact .absent _
    | i + 4 => cases hv
  refine .record rfl ?_
  intro i v f hv hf
  match i with
  | 0 => cases hv; cases hf; exact .text _
  | 1 => cases hv; cases hf; exact .text _
  | 2 => cases hv; cases hf; exact .present hloner
  | 3 => cases hv; cases hf; exact .absent _
  | i + 4 => cases hv

/-- The name of a friend is found as a flattened path, and read from its dotted form; that of a
friend of a friend is blocked, the friend having none. -/
theorem dotted_agrees_friend :
    ∃ p q, flatten? friendSchema "Person" "friend_name" .exact = some p ∧
      parse? friendSchema "Person" "friend.name" = some p ∧
      Lies friendSchema ["friend", "name"] visitor (.text "Ada") ∧
      flatten? friendSchema "Person" "friend_friend_name" .exact = some q ∧
      parse? friendSchema "Person" "friend.friend.name" = some q ∧
      Blocked friendSchema ["friend", "friend", "name"] visitor := by
  have hdistinct : ∀ r, ((friendSchema.fields r).map (·.name)).Nodup := by
    intro r
    unfold Schema.fields friendSchema
    dsimp only
    split <;> decide
  have hundotted : ∀ r, ∀ f ∈ friendSchema.fields r, '.' ∉ f.name.toList := by
    intro r
    unfold Schema.fields friendSchema
    dsimp only
    split <;> decide
  obtain ⟨hagree, -, hread⟩ := dotted_agrees friendSchema "Person" hdistinct hundotted
  have hfound : flatten? friendSchema "Person" "friend_name" .exact =
      some { head := 2, terminal := .prim .text, names := ["friend", "name"]
             steps := [{ opens := true, record := "Person", index := 1 }] } := by
    decide +kernel
  have hfar : flatten? friendSchema "Person" "friend_friend_name" .exact =
      some { head := 2, terminal := .prim .text, names := ["friend", "friend", "name"]
             steps := [{ opens := true, record := "Person", index := 2 },
               { opens := true, record := "Person", index := 1 }] } := by
    decide +kernel
  have hparse := hagree _ (.inl ⟨_, _, hfound⟩)
  have hparseFar := hagree _ (.inl ⟨_, _, hfar⟩)
  have hlies := ((hread _ _ hparse).2 visitor hasType_visitor).2 (.text "Ada")
  have hblocked := ((hread _ _ hparseFar).2 visitor hasType_visitor).1
  exact ⟨_, _, hfound, hparse, hlies.mp rfl, hfar, hparseFar, hblocked.mp rfl⟩

end Path

end RecordMap
