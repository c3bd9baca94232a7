import RecordMap.Ty

/-!
# Schemas

A schema says what the names of records and enumerations stand for: the members
of each record in declaration order, and the variants of each enumeration with
their underlying integers.

A record that contained itself other than through an option or a sequence would
have no finite value.  A schema rules this out by ranking the records so that
each one outranks the records its members are (`Schema.contains_lt`).
`Schema.ofDecls?` accepts exactly the finite lists of declarations that can be
ranked.
-/

namespace RecordMap

/-! ## §1. Declarations -/

/-- A member of a record.  A read-only member has no setter, a write-only one no
getter. -/
structure Field where
  name : String
  type : Ty
  readable : Bool := true
  writable : Bool := true
  deriving DecidableEq, Repr

/-- A record: its members in order, and whether an absent source still
constructs a record of zeros. -/
structure RecordDecl where
  fields : List Field := []
  valueAggregate : Bool := false
  deriving DecidableEq, Repr

/-- A variant of an enumeration. -/
structure Variant where
  name : String
  underlying : Int
  deriving DecidableEq, Repr

/-- An enumeration; the first variant is its zero. -/
structure EnumDecl where
  first : Variant
  others : List Variant := []
  deriving DecidableEq, Repr

namespace EnumDecl

/-- All variants in order. -/
def variants (d : EnumDecl) : List Variant := d.first :: d.others

/-- The variant at a position, the first one if there is none. -/
def variant (d : EnumDecl) (i : Nat) : Variant := d.variants[i]?.getD d.first

/-- Position of the first variant with a name. -/
def ofName? (d : EnumDecl) (name : String) : Option Nat :=
  d.variants.findIdx? (·.name == name)

/-- Position of the first variant with an underlying value. -/
def ofUnderlying? (d : EnumDecl) (n : Int) : Option Nat :=
  d.variants.findIdx? (·.underlying == n)

end EnumDecl

/-! ## §2. Schemas -/

/-- What the names of types stand for. -/
structure Schema where
  naming : Naming
  record : String → RecordDecl
  enum : String → EnumDecl
  /-- A rank for each record. -/
  rank : String → Nat
  /-- A record outranks the records that are its members. -/
  contains_lt : ∀ r r', (∃ f ∈ (record r).fields, f.type = .record r') → rank r' < rank r

namespace Schema

/-- The members of a record, in declaration order. -/
def fields (σ : Schema) (r : String) : List Field := (σ.record r).fields

/-- The display name of a type. -/
def name (σ : Schema) (t : Ty) : String := t.name σ.naming

/-! ## §3. Finite declarations -/

/-- Declarations of records by name. -/
abbrev RecordDecls := List (String × RecordDecl)

/-- The first declaration of a name; an undeclared record has no members. -/
def lookupRecord (decls : RecordDecls) (r : String) : RecordDecl :=
  (decls.lookup r).getD {}

/-- Containment depth of a record, measured to a bounded depth. -/
def depth (decls : RecordDecls) : Nat → String → Nat
  | 0, _ => 0
  | n + 1, r =>
      ((lookupRecord decls r).fields.map fun f =>
        match f.type with
        | .record r' => depth decls n r' + 1
        | _ => 0).foldl max 0

/-- A ranking puts every declared record above the records its members are. -/
def ranked (decls : RecordDecls) (rank : String → Nat) : Bool :=
  decls.all fun (r, d) => d.fields.all fun f =>
    match f.type with
    | .record r' => rank r' < rank r
    | _ => true

theorem mem_of_lookup {decls : RecordDecls} {r : String} {d : RecordDecl}
    (h : decls.lookup r = some d) : (r, d) ∈ decls := by
  induction decls with
  | nil => simp at h
  | cons head tail ih =>
      obtain ⟨name, decl⟩ := head
      rw [List.lookup_cons] at h
      cases hn : r == name with
      | true =>
          simp only [hn] at h
          have : r = name := by simpa using hn
          cases h
          simp [this]
      | false =>
          simp only [hn] at h
          exact List.mem_cons_of_mem _ (ih h)

theorem lt_of_ranked {decls : RecordDecls} {rank : String → Nat} (h : ranked decls rank = true)
    (r r' : String) (hf : ∃ f ∈ (lookupRecord decls r).fields, f.type = .record r') :
    rank r' < rank r := by
  obtain ⟨f, hmem, htype⟩ := hf
  unfold lookupRecord at hmem
  cases hl : decls.lookup r with
  | none => simp [hl] at hmem
  | some d =>
      simp only [hl, Option.getD_some] at hmem
      have hd := List.all_eq_true.1 h _ (mem_of_lookup hl)
      have := List.all_eq_true.1 hd f hmem
      simpa [htype] using this

/-- **The schema of finite declarations.**  Of several declarations of a name the
first counts.  There is no schema when a record contains itself. -/
def ofDecls? (naming : Naming) (records : RecordDecls) (enum : String → EnumDecl) :
    Option Schema :=
  let rank := depth records (records.length + 1)
  if h : ranked records rank = true then
    some { naming, record := lookupRecord records, enum, rank, contains_lt := lt_of_ranked h }
  else none

end Schema

end RecordMap
