import RecordMap.Path.Descent
import RecordMap.Proofs.Typing.Path

/-!
# Flattened paths

A *chain* from a record is a row of members, each one readable in the record before it
(`Path.Chain`).  The chains with a matching name are those that a search for a flattened path
is after (`Path.Fits`).

Chains are ordered by the positions of their members: a chain comes before those that go on
from it, and where two part, the one to the earlier member comes first.  The candidates of the
search are the paths along all chains of two to four members, in that order
(`Path.sorted_candidates`).  So the search misses no chain, and finds the first
(`Path.flattened_first`).

The search carries stacks, which are as before after every branch that fails
(`Path.descend_eq`); so it comes to the same as the search without them.
-/

namespace RecordMap

namespace Path

variable {σ : Schema} {source target : String} {m : Matcher}

/-! ## §1. Chains -/

/-- The record stepped into from a value of a type: the type itself, or what it is an option
over. -/
def Enters (t : Ty) (r : String) : Prop := t = .record r ∨ t = .option (.record r)

theorem enters_iff {t : Ty} {r : String} : Enters t r ↔ enters? t = some (t.isNullable, r) := by
  rw [enters?_eq_some_iff]
  constructor
  · intro h
    rcases h with rfl | rfl
    · exact .inl ⟨rfl, rfl⟩
    · exact .inr ⟨rfl, rfl⟩
  · intro h
    rcases h with ⟨_, h⟩ | ⟨_, h⟩
    · exact .inl h
    · exact .inr h

/-- No other record can be stepped into, and no other option lies before it. -/
theorem enters_of_enters? {t : Ty} {opens : Bool} {r : String} (h : enters? t = some (opens, r)) :
    Enters t r ∧ opens = t.isNullable ∧ t.unwrapped = .record r := by
  rcases enters?_eq_some_iff.mp h with ⟨rfl, rfl⟩ | ⟨rfl, rfl⟩
  · exact ⟨.inl rfl, rfl, rfl⟩
  · exact ⟨.inr rfl, rfl, rfl⟩

theorem Enters.unique {t : Ty} {r r' : String} (h : Enters t r) (h' : Enters t r') : r = r' := by
  have hr := enters_iff.mp h
  rw [enters_iff.mp h'] at hr
  cases hr
  rfl

/-- **A chain of members** from a record, with their positions: each is a readable member of
the record before it, and each but the last has a record type or an option over one. -/
inductive Chain (σ : Schema) : String → List (Nat × Field) → Prop where
  | last {r : String} {i : Nat} {f : Field} (member : (σ.fields r)[i]? = some f)
      (readable : f.readable = true) : Chain σ r [(i, f)]
  | link {r r' : String} {i : Nat} {f : Field} {rest : List (Nat × Field)}
      (member : (σ.fields r)[i]? = some f) (readable : f.readable = true)
      (enters : Enters f.type r') (more : Chain σ r' rest) : Chain σ r ((i, f) :: rest)

theorem chain_cons {r : String} {x : Nat × Field} {rest : List (Nat × Field)} :
    Chain σ r (x :: rest) ↔ (σ.fields r)[x.1]? = some x.2 ∧ x.2.readable = true ∧
      (rest = [] ∨ ∃ r', Enters x.2.type r' ∧ Chain σ r' rest) := by
  constructor
  · intro h
    cases h with
    | last member readable => exact ⟨member, readable, .inl rfl⟩
    | link member readable enters more => exact ⟨member, readable, .inr ⟨_, enters, more⟩⟩
  · intro h
    obtain ⟨hmember, hreadable, hrest⟩ := h
    rcases hrest with rfl | ⟨r', henters, hmore⟩
    · exact .last hmember hreadable
    · exact .link hmember hreadable henters hmore

/-- A chain can be cut behind each of its members. -/
theorem chain_cut {r : String} {pre rest : List (Nat × Field)} {x y : Nat × Field} :
    Chain σ r (pre ++ x :: y :: rest) ↔
      Chain σ r (pre ++ [x]) ∧ ∃ r', Enters x.2.type r' ∧ Chain σ r' (y :: rest) := by
  induction pre generalizing r with
  | nil => simp [chain_cons, and_assoc]
  | cons w pre ih =>
    rw [List.cons_append, List.cons_append, chain_cons, chain_cons]
    simp only [ih, List.append_eq_nil_iff, reduceCtorEq, and_false, false_or]
    constructor
    · intro h
      obtain ⟨hmember, hreadable, r', henters, hpre, hrest⟩ := h
      exact ⟨⟨hmember, hreadable, r', henters, hpre⟩, hrest⟩
    · intro h
      obtain ⟨⟨hmember, hreadable, r', henters, hpre⟩, hrest⟩ := h
      exact ⟨hmember, hreadable, r', henters, hpre, hrest⟩

/-- The positions of its members tell a chain from all others from the same record. -/
theorem Chain.eq_of_positions {r : String} {xs ys : List (Nat × Field)} (hxs : Chain σ r xs)
    (hys : Chain σ r ys) (h : xs.map (·.1) = ys.map (·.1)) : xs = ys := by
  induction hxs generalizing ys with
  | last member readable =>
    cases hys with
    | last member' readable' =>
      simp at h
      subst h
      rw [member] at member'
      cases member'
      rfl
    | link _ _ _ more => cases more <;> simp at h
  | link member readable enters more ih =>
    cases hys with
    | last member' readable' => cases more <;> simp at h
    | link member' readable' enters' more' =>
      simp only [List.map_cons, List.cons.injEq] at h
      obtain ⟨rfl, hrest⟩ := h
      rw [member] at member'
      cases member'
      -- One member leads into one record only.
      cases enters.unique enters'
      rw [ih more' hrest]

/-! ## §2. Paths along chains -/

/-- The positions read at, one for each segment. -/
def positions (p : Path) : List Nat := p.head :: p.steps.map (·.index)

/-- **The path is one along the chain**: it has a segment for each member, ends at the type of
the last one, and its steps enter the records between, opening those that are in options. -/
structure Along (chain : List (Nat × Field)) (p : Path) : Prop where
  positions : p.positions = chain.map (·.1)
  names : p.names = chain.map (·.2.name)
  terminal : chain.getLast?.map (·.2.type) = some p.terminal
  steps : ∀ (k : Nat) (s : Step), p.steps[k]? = some s → ∃ x : Nat × Field, chain[k]? = some x ∧
    s.opens = x.2.type.isNullable ∧ x.2.type.unwrapped = .record s.record

/-- There is one step for each member after the first. -/
theorem Along.length_steps {chain : List (Nat × Field)} {p : Path} (h : Along chain p) :
    p.steps.length + 1 = chain.length := by
  have hlength := congrArg List.length h.positions
  simpa [Path.positions] using hlength

theorem Along.terminal_eq {pre : List (Nat × Field)} {x : Nat × Field} {p : Path}
    (h : Along (pre ++ [x]) p) : p.terminal = x.2.type := by
  have hterminal := h.terminal
  simp at hterminal
  exact hterminal.symm

theorem along_single (i : Nat) (f : Field) : Along [(i, f)] (single i f) := by
  refine ⟨rfl, rfl, rfl, ?_⟩
  intro k s hs
  simp [single] at hs

theorem Along.extend {pre : List (Nat × Field)} {x : Nat × Field} {p : Path} {opens : Bool}
    {r : String} (h : Along (pre ++ [x]) p) (hr : enters? x.2.type = some (opens, r)) (i : Nat)
    (f : Field) : Along (pre ++ [x] ++ [(i, f)]) (p.extend opens r i f) := by
  have hlength : p.steps.length = pre.length := by
    have := h.length_steps
    simpa using this
  obtain ⟨-, hopens, hrecord⟩ := enters_of_enters? hr
  constructor
  case positions =>
    have hpositions := h.positions
    unfold Path.positions at hpositions ⊢
    simp [Path.extend, ← List.cons_append, hpositions]
  case names => simp [Path.extend, h.names]
  case terminal => simp [Path.extend]
  case steps =>
    intro k s hs
    simp only [Path.extend] at hs
    by_cases hk : k < p.steps.length
    · rw [List.getElem?_append_left hk] at hs
      obtain ⟨y, hy, hstep⟩ := h.steps k s hs
      refine ⟨y, ?_, hstep⟩
      rw [List.getElem?_append_left (by simp; omega)]
      exact hy
    · -- The last step is the new one; it starts from the member before.
      rw [List.getElem?_append_right (by omega), List.getElem?_singleton] at hs
      split at hs
      · cases hs
        refine ⟨x, ?_, hopens, hrecord⟩
        have hlast : k = pre.length := by omega
        subst hlast
        simp
      · cases hs

/-- **Every extension is along a chain** that goes on. -/
theorem chain_of_mem_extensions {n : Nat} {p q : Path} {pre : List (Nat × Field)}
    {x : Nat × Field} (hchain : Chain σ source (pre ++ [x])) (hp : Along (pre ++ [x]) p)
    (hq : q ∈ extensions σ n p) :
    ∃ y rest, (y :: rest).length ≤ n ∧ Chain σ source (pre ++ x :: y :: rest) ∧
      Along (pre ++ x :: y :: rest) q := by
  induction n generalizing p pre x with
  | zero => cases hq
  | succ n ih =>
    unfold extensions at hq
    rw [hp.terminal_eq] at hq
    cases henters : enters? x.2.type with
    | none =>
      rw [henters] at hq
      cases hq
    | some entry =>
      obtain ⟨opens, r⟩ := entry
      rw [henters] at hq
      obtain ⟨⟨i, f⟩, hf, hmem⟩ := List.mem_flatMap.mp hq
      obtain ⟨hmember, hreadable⟩ := mem_readable.mp hf
      have hnext : Chain σ source (pre ++ [x] ++ [(i, f)]) := by
        rw [List.append_assoc]
        exact chain_cut.mpr ⟨hchain, r, (enters_of_enters? henters).1, .last hmember hreadable⟩
      have hext := hp.extend henters i f
      rcases List.mem_cons.mp hmem with rfl | hlater
      · refine ⟨(i, f), [], by simp, ?_, ?_⟩
        · simpa using hnext
        · simpa using hext
      · obtain ⟨y, rest, hroom, hy, hq⟩ := ih hnext hext hlater
        refine ⟨(i, f), y :: rest, by simpa using hroom, ?_, ?_⟩
        · simpa using hy
        · simpa using hq

/-- **No chain is missed**: if there is room for it, it has its extension. -/
theorem mem_extensions_of_chain {n : Nat} {p : Path} {pre rest : List (Nat × Field)}
    {x y : Nat × Field} (hp : Along (pre ++ [x]) p) (hroom : (y :: rest).length ≤ n)
    (hchain : Chain σ source (pre ++ x :: y :: rest)) :
    ∃ q ∈ extensions σ n p, Along (pre ++ x :: y :: rest) q := by
  induction n generalizing p pre x y rest with
  | zero => simp at hroom
  | succ n ih =>
    obtain ⟨hstart, r, hr, hmore⟩ := chain_cut.mp hchain
    have henters := enters_iff.mp hr
    obtain ⟨hmember, hreadable, hrest⟩ := chain_cons.mp hmore
    have hext := hp.extend henters y.1 y.2
    have hmem : ∀ q, q = p.extend x.2.type.isNullable r y.1 y.2 ∨
        q ∈ extensions σ n (p.extend x.2.type.isNullable r y.1 y.2) → q ∈ extensions σ (n + 1) p := by
      intro q hq
      unfold extensions
      rw [hp.terminal_eq, henters]
      exact List.mem_flatMap.mpr ⟨y, mem_readable.mpr ⟨hmember, hreadable⟩, List.mem_cons.mpr hq⟩
    cases rest with
    | nil => exact ⟨_, hmem _ (.inl rfl), by simpa using hext⟩
    | cons z rest =>
      have hlong : Chain σ source (pre ++ [x] ++ y :: z :: rest) := by simpa using hchain
      obtain ⟨q, hq, halong⟩ := ih hext (by simpa using hroom) hlong
      exact ⟨q, hmem q (.inr hq), by simpa using halong⟩

/-! ## §3. The order of the search -/

@[simp] theorem positions_extend (p : Path) (opens : Bool) (r : String) (i : Nat) (f : Field) :
    (p.extend opens r i f).positions = p.positions ++ [i] := by
  simp [positions, extend]

/-- The readable members of a record are in the order of their positions. -/
theorem sorted_readable (r : String) :
    (readable σ r).Pairwise fun x y => x.1 < y.1 := by
  unfold readable
  rw [List.pairwise_filterMap]
  have hpositions : ((σ.fields r).zipIdx.map Prod.snd).Pairwise (· < ·) := by
    rw [List.zipIdx_map_snd]
    exact List.pairwise_lt_range'
  refine (List.pairwise_map.mp hpositions).imp ?_
  intro x y hlt u hu v hv
  by_cases hx : x.1.readable = true
  · by_cases hy : y.1.readable = true
    · simp [hx] at hu
      simp [hy] at hv
      subst hu hv
      exact hlt
    · simp [hy] at hv
  · simp [hx] at hu

theorem positions_of_mem_extensions {n : Nat} {p q : Path} (hq : q ∈ extensions σ n p) :
    ∃ i rest, q.positions = p.positions ++ i :: rest := by
  induction n generalizing p with
  | zero => cases hq
  | succ n ih =>
    unfold extensions at hq
    split at hq
    · cases hq
    · obtain ⟨⟨i, f⟩, hf, hmem⟩ := List.mem_flatMap.mp hq
      rcases List.mem_cons.mp hmem with rfl | hlater
      · exact ⟨i, [], positions_extend _ _ _ _ _⟩
      · obtain ⟨j, rest, hpositions⟩ := ih hlater
        refine ⟨i, j :: rest, ?_⟩
        rw [hpositions]
        simp

/-- Where two paths part, the one to the earlier member comes first. -/
theorem positions_lt_of_lt (ps : List Nat) {i j : Nat} (h : i < j) (us vs : List Nat) :
    ps ++ i :: us < ps ++ j :: vs :=
  List.append_left_lt (List.cons_lt_cons_iff.mpr (.inl h))

/-- **The extensions of a path are in order.** -/
theorem sorted_extensions (n : Nat) (p : Path) :
    (extensions σ n p).Pairwise fun q q' => q.positions < q'.positions := by
  induction n generalizing p with
  | zero => exact .nil
  | succ n ih =>
    unfold extensions
    split
    · exact .nil
    · rename_i opens r _
      have hstart : ∀ (i : Nat) (f : Field) (q : Path),
          q ∈ p.extend opens r i f :: extensions σ n (p.extend opens r i f) →
            ∃ rest, q.positions = p.positions ++ i :: rest := by
        intro i f q hq
        rcases List.mem_cons.mp hq with rfl | hlater
        · exact ⟨[], positions_extend _ _ _ _ _⟩
        · obtain ⟨j, rest, hpositions⟩ := positions_of_mem_extensions hlater
          refine ⟨j :: rest, ?_⟩
          rw [hpositions]
          simp
      refine List.pairwise_flatMap.mpr ⟨?_, ?_⟩
      · -- A path comes before its own extensions.
        intro ⟨i, f⟩ _
        refine List.pairwise_cons.mpr ⟨?_, ih _⟩
        intro q hq
        obtain ⟨j, rest, hpositions⟩ := positions_of_mem_extensions hq
        have hlt : (p.extend opens r i f).positions ++ [] <
            (p.extend opens r i f).positions ++ j :: rest :=
          List.append_left_lt (List.nil_lt_cons j rest)
        rw [hpositions]
        simpa using hlt
      · refine (sorted_readable r).imp ?_
        intro ⟨i, f⟩ ⟨j, g⟩ hlt q hq q' hq'
        obtain ⟨us, hus⟩ := hstart i f q hq
        obtain ⟨vs, hvs⟩ := hstart j g q' hq'
        rw [hus, hvs]
        exact positions_lt_of_lt _ hlt us vs

/-- **The candidates of the search are in order.** -/
theorem sorted_candidates (source : String) :
    (candidates σ source).Pairwise fun p q => p.positions < q.positions := by
  refine List.pairwise_flatMap.mpr ⟨fun x _ => sorted_extensions _ _, ?_⟩
  refine (sorted_readable source).imp ?_
  intro ⟨i, f⟩ ⟨j, g⟩ hlt p hp q hq
  obtain ⟨u, us, hus⟩ := positions_of_mem_extensions hp
  obtain ⟨v, vs, hvs⟩ := positions_of_mem_extensions hq
  rw [hus, hvs]
  exact positions_lt_of_lt [] hlt (u :: us) (v :: vs)

/-! ## §4. Chains with a matching name -/

/-- **The chain fits a name**: it has two to four members, and their names joined by
underscores match. -/
structure Fits (σ : Schema) (source target : String) (m : Matcher)
    (chain : List (Nat × Field)) : Prop where
  readable : Chain σ source chain
  atLeast : 2 ≤ chain.length
  atMost : chain.length ≤ 4
  accepted : m.accepts target (Text.join "_" (chain.map (·.2.name))) = true

/-- A candidate that is accepted is along a chain that fits. -/
theorem fits_of_candidate {p : Path} (hp : p ∈ candidates σ source)
    (haccepted : isFlattenedTo m target p = true) :
    ∃ chain, Fits σ source target m chain ∧ Along chain p := by
  obtain ⟨⟨i, f⟩, hf, hq⟩ := List.mem_flatMap.mp hp
  obtain ⟨hmember, hreadable⟩ := mem_readable.mp hf
  have hstart : Chain σ source ([] ++ [(i, f)]) := .last hmember hreadable
  obtain ⟨y, rest, hroom, hchain, halong⟩ :=
    chain_of_mem_extensions hstart (along_single i f) hq
  refine ⟨(i, f) :: y :: rest, ⟨hchain, by simp, ?_, ?_⟩, halong⟩
  · unfold maxFlattened at hroom
    simp at hroom ⊢
    omega
  · unfold isFlattenedTo at haccepted
    rwa [halong.names] at haccepted

/-- A chain that fits has a candidate along it, which is accepted. -/
theorem Fits.candidate {chain : List (Nat × Field)} (h : Fits σ source target m chain) :
    ∃ p ∈ candidates σ source, Along chain p ∧ isFlattenedTo m target p = true := by
  obtain ⟨hchain, hatLeast, hatMost, haccepted⟩ := h
  match chain with
  | [] => simp at hatLeast
  | [x] => simp at hatLeast
  | x :: y :: rest =>
    obtain ⟨hmember, hreadable, -⟩ := chain_cons.mp hchain
    have hroom : (y :: rest).length ≤ maxFlattened - 1 := by
      unfold maxFlattened
      simp at hatMost ⊢
      omega
    have hstart : Along ([] ++ [x]) (single x.1 x.2) := along_single x.1 x.2
    obtain ⟨p, hp, halong⟩ := mem_extensions_of_chain hstart hroom hchain
    refine ⟨p, ?_, halong, ?_⟩
    · exact List.mem_flatMap.mpr ⟨x, mem_readable.mpr ⟨hmember, hreadable⟩, hp⟩
    · unfold isFlattenedTo
      rw [halong.names]
      exact haccepted

/-- What is found first in a list in order comes before all else that is accepted. -/
theorem first_of_find? {ps : List Path} {accepts : Path → Bool} {p q : Path}
    (hsorted : ps.Pairwise fun p q => p.positions < q.positions)
    (hp : ps.find? accepts = some p) (hq : q ∈ ps) (haccepted : accepts q = true) :
    q = p ∨ p.positions < q.positions := by
  obtain ⟨-, before, after, rfl, hbefore⟩ := List.find?_eq_some_iff_append.mp hp
  rcases List.mem_append.mp hq with hmem | hmem
  · have hrefused := hbefore q hmem
    simp [haccepted] at hrefused
  · rcases List.mem_cons.mp hmem with rfl | hlater
    · exact .inl rfl
    · have htail := (List.pairwise_append.mp hsorted).2.1
      exact .inr ((List.pairwise_cons.mp htail).1 q hlater)

/-! ## §5. The search with stacks -/

/-- What a branch of the search leaves: a path on the stacks, or the stacks as they were. -/
def Stacks.outcome (s : Stacks) : Option Path → Option Ty × Stacks
  | some p => (some p.terminal, { names := p.names, steps := p.steps })
  | none => (none, s)

/-- A member entered and left again leaves the stacks as they were. -/
theorem Stacks.outcome_push (s : Stacks) (name : String) (step : Step) (found : Option Path) :
    (match (s.push name step).outcome found with
      | (some t, s) => (some t, s)
      | (none, s) => (none, s.pop)) = s.outcome found := by
  cases found with
  | none => simp [outcome]
  | some p => rfl

theorem tryEach_eq {visit : Nat × Field → Stacks → Option Ty × Stacks}
    {found : Nat × Field → Option Path} {s : Stacks} (xs : List (Nat × Field))
    (h : ∀ x, visit x s = s.outcome (found x)) :
    tryEach visit xs s = s.outcome (xs.findSome? found) := by
  induction xs with
  | nil => rfl
  | cons x xs ih =>
    unfold tryEach
    rw [h, List.findSome?_cons]
    cases found x with
    | some p => rfl
    | none => exact ih

/-- **The descent finds the first accepted extension** of the path on its stacks, and puts
the stacks back as they were if there is none. -/
theorem descend_eq {accepts : String → Bool} (head : Nat) {room n : Nat} {t : Ty} {s : Stacks}
    (hfull : s.names.length + n = maxFlattened) (hroom : n ≤ room) :
    descend σ accepts room t s =
      s.outcome (firstExtension? σ (fun p => accepts (Text.join "_" p.names)) n
        { head, steps := s.steps, terminal := t, names := s.names }) := by
  induction room generalizing n t s with
  | zero =>
    have : n = 0 := by omega
    subst this
    rfl
  | succ room ih =>
    unfold descend
    cases n with
    | zero =>
      rw [if_pos (by omega)]
      rfl
    | succ n =>
      rw [if_neg (by omega)]
      unfold firstExtension?
      dsimp only
      cases enters? t with
      | none => rfl
      | some entry =>
        obtain ⟨opens, r⟩ := entry
        dsimp only
        refine tryEach_eq _ ?_
        intro x
        obtain ⟨i, f⟩ := x
        dsimp only
        have hbelow := ih (t := f.type) (n := n)
          (s := s.push f.name { opens, record := r, index := i })
          (by rw [Stacks.length_names_push]; omega) (by omega)
        by_cases haccepts : accepts (Text.join "_" (s.names ++ [f.name])) = true
        · have hpushed : accepts (Text.join "_"
              (s.push f.name { opens, record := r, index := i }).names) = true := haccepts
          simp only [hpushed, extend, haccepts, if_true]
          rfl
        · have hpushed : ¬ accepts (Text.join "_"
              (s.push f.name { opens, record := r, index := i }).names) = true := haccepts
          rw [if_neg hpushed, hbelow, if_neg (by exact haccepts)]
          exact Stacks.outcome_push s f.name _ _

/-- A path found has the member it was started with as its first. -/
theorem head_of_firstExtension? {accepts : Path → Bool} {n : Nat} {p q : Path}
    (hq : firstExtension? σ accepts n p = some q) : q.head = p.head := by
  rw [firstExtension?_eq] at hq
  obtain ⟨i, rest, hpositions⟩ := positions_of_mem_extensions (List.mem_of_find?_eq_some hq)
  unfold positions at hpositions
  simp at hpositions
  exact hpositions.1

/-- **The search with stacks is the search without.** -/
theorem search?_eq (σ : Schema) (source target : String) (m : Matcher) :
    search? σ source target m = flatten? σ source target m := by
  unfold search? flatten?
  congr 1
  funext ⟨i, f⟩
  have hdescend : descend σ (m.accepts target) maxFlattened f.type { names := [f.name] } =
      Stacks.outcome { names := [f.name] }
        (firstExtension? σ (isFlattenedTo m target) (maxFlattened - 1) (single i f)) :=
    descend_eq i rfl (by decide)
  dsimp only
  rw [hdescend]
  cases hfound : firstExtension? σ (isFlattenedTo m target) (maxFlattened - 1) (single i f) with
  | none => rfl
  | some p =>
    have hhead : p.head = i := head_of_firstExtension? hfound
    subst hhead
    rfl

/-! ## §6. The first chain -/

/-- **Flattening finds the first chain that fits, and misses none.**  There is a path exactly
when there is a chain of two to four members with a matching name.  The path is along the first
such chain: any other has later positions.  So it is written with the names of the chain, ends
at the type of its last member, has one step for each member after the first, and opens a step
exactly when the member before it has an option type.  The search with stacks gives the same
path. -/
theorem flattened_first (σ : Schema) (source target : String) (m : Matcher) :
    ((flatten? σ source target m).isSome = true ↔ ∃ chain, Fits σ source target m chain) ∧
      (∀ p, flatten? σ source target m = some p → ∃ chain, Fits σ source target m chain ∧
        (∀ other, Fits σ source target m other →
          other = chain ∨ chain.map (·.1) < other.map (·.1)) ∧
        Along chain p ∧ p.display = Text.join "." (chain.map (·.2.name)) ∧
        p.steps.length + 1 = chain.length) ∧
      search? σ source target m = flatten? σ source target m := by
  refine ⟨?_, ?_, search?_eq σ source target m⟩
  · rw [flatten?_eq, List.find?_isSome]
    constructor
    · intro h
      obtain ⟨p, hp, haccepted⟩ := h
      obtain ⟨chain, hfits, -⟩ := fits_of_candidate hp haccepted
      exact ⟨chain, hfits⟩
    · intro h
      obtain ⟨chain, hfits⟩ := h
      obtain ⟨p, hp, -, haccepted⟩ := hfits.candidate
      exact ⟨p, hp, haccepted⟩
  · intro p hp
    rw [flatten?_eq] at hp
    obtain ⟨chain, hfits, halong⟩ :=
      fits_of_candidate (List.mem_of_find?_eq_some hp) (List.find?_some hp)
    refine ⟨chain, hfits, ?_, halong, ?_, halong.length_steps⟩
    · intro other hother
      obtain ⟨q, hq, hqalong, haccepted⟩ := hother.candidate
      rcases first_of_find? (sorted_candidates source) hp hq haccepted with rfl | hlt
      · -- Two chains along one path are at the same positions.
        have hpositions : other.map (·.1) = chain.map (·.1) := by
          rw [← hqalong.positions, halong.positions]
        exact .inl (hother.readable.eq_of_positions hfits.readable hpositions)
      · right
        rw [← halong.positions, ← hqalong.positions]
        exact hlt
    · unfold display
      rw [halong.names]

/-- People with friends, and friends of friends. -/
def friendSchema : Schema where
  naming := ⟨"Text", "Option", "List"⟩
  record
    | "Person" => { fields := [
        { name := "secret", type := .prim .text, readable := false },
        { name := "name", type := .prim .text },
        { name := "friend", type := .option (.record "Person") },
        { name := "friend_friend", type := .option (.record "Person") }] }
    | _ => {}
  enum _ := { first := { name := "", underlying := 0 } }
  rank _ := 0
  contains_lt := by
    intro r r' h
    obtain ⟨f, hf, ht⟩ := h
    split at hf <;> simp at hf
    rcases hf with rfl | rfl | rfl | rfl <;> cases ht

/-- Two chains have the name: that through friends twice comes first, and is found. -/
theorem flattened_first_friend :
    ∃ p, flatten? friendSchema "Person" "friend_friend_name" .exact = some p ∧
      p.positions = [2, 2, 1] ∧ p.display = "friend.friend.name" ∧
      ∃ chain, Fits friendSchema "Person" "friend_friend_name" .exact chain ∧ Along chain p ∧
        ∀ other, Fits friendSchema "Person" "friend_friend_name" .exact other →
          other = chain ∨ chain.map (·.1) < other.map (·.1) := by
  have hfound : flatten? friendSchema "Person" "friend_friend_name" .exact =
      some { head := 2, terminal := .prim .text, names := ["friend", "friend", "name"]
             steps := [{ opens := true, record := "Person", index := 2 },
               { opens := true, record := "Person", index := 1 }] } := by
    decide +kernel
  obtain ⟨chain, hfits, hfirst, halong, -⟩ :=
    (flattened_first friendSchema "Person" "friend_friend_name" .exact).2.1 _ hfound
  exact ⟨_, hfound, rfl, by decide +kernel, chain, hfits, halong, hfirst⟩

end Path

end RecordMap
