import RecordMap.Proofs.Conversion.Joins

/-!
# When a conversion gives nothing

A conversion opens options only at its start: before any other work it may have
to open the option its source is, and the option inside that.  It gives nothing
exactly when one of those is empty (`Conversion.Joins.run_eq_none_iff`), so a
conversion from a type without options always gives a value.

Within a sequence nothing is ever missing: an element for which the conversion
gives nothing is the zero of its type, in its place
(`Conversion.run_elements_ok`).
-/

namespace RecordMap

namespace Conversion

variable {ω : Type} {σ : Schema} {P : Converter → Prop} {c : Conversion} {a b : Ty} {v : Value}
  {parameter handedOn : Option Value} {nest : Nesting ω}

/-- **An empty option is met** where the conversion has to open one. -/
inductive MeetsEmpty : Conversion → Value → Prop where
  | here {t : Ty} {next : Conversion} {v : Value} (empty : v.content? t = none) :
      MeetsEmpty (.unwrap t next) v
  | inside {t : Ty} {next : Conversion} {v w : Value} (opened : v.content? t = some w)
      (met : MeetsEmpty next w) : MeetsEmpty (.unwrap t next) v
  | before {t : Ty} {next : Conversion} {v : Value} (met : MeetsEmpty next v) :
      MeetsEmpty (.wrap t next) v

/-- Options are opened only where the source is one. -/
theorem Joins.isNullable_of_meetsEmpty (hc : c.Joins P a b) (h : c.MeetsEmpty v) :
    a.isNullable = true := by
  induction hc generalizing v with
  | unwrap more ih => rfl
  | wrap more ih =>
    cases h with
    | before met => exact ih met
  | _ => cases h

theorem run_some_ne_none {s : Type} {x : Run s Value} {st : s} :
    ((some <$> x).run st).1 ≠ .ok none := by
  intro h
  obtain ⟨_, _, hnone⟩ := Run.map_ok (Prod.ext h rfl)
  cases hnone

theorem run_elements_ne_none {next : Conversion} {call : Call ω} :
    (((elements a b next).run σ parameter handedOn nest v).run call).1 ≠ .ok none := by
  intro h
  rw [Conversion.run] at h
  obtain ⟨_, _, _, h⟩ := Run.bind_ok (Prod.ext h rfl)
  obtain ⟨_, _, _, h⟩ := Run.bind_ok h
  obtain ⟨_, _, hnone⟩ := Run.map_ok h
  cases hnone

/-- **A conversion gives nothing** exactly when it meets an empty option. -/
theorem Joins.run_eq_none_iff (hc : c.Joins P a b) (call : Call ω) :
    ((c.run σ parameter handedOn nest v).run call).1 = .ok none ↔ c.MeetsEmpty v := by
  -- Past the options at its start a conversion ends in a value or fails.
  induction hc generalizing v with
  | unwrap more ih =>
    rw [Conversion.run]
    cases hw : v.content? _ with
    | none => exact ⟨fun _ => .here hw, fun _ => rfl⟩
    | some w =>
      constructor
      · intro h
        exact .inside hw (ih.mp h)
      · intro h
        cases h with
        | here empty =>
          rw [hw] at empty
          cases empty
        | inside opened met =>
          rw [hw] at opened
          cases opened
          exact ih.mpr met
  | @wrap a b next more ih =>
    rw [Conversion.run]
    constructor
    · intro h
      obtain ⟨o, call', ho, h⟩ := Run.bind_ok (Prod.ext h rfl)
      cases o with
      | none => exact .before (ih.mp (by rw [ho]))
      | some out =>
        obtain ⟨_, _, hnone⟩ := Run.map_ok h
        cases hnone
    · intro h
      cases h with
      | before met =>
        have hnone := ih.mpr met
        rcases hrun : (next.run σ parameter handedOn nest v).run call with ⟨r, call'⟩
        rw [hrun] at hnone
        cases hnone
        rw [Run.run_bind_ok hrun]
        rfl
  | wrapSource holds takes =>
    -- What follows is a converter, so the closed option is never opened again.
    rw [Conversion.run]
    refine iff_of_false ?_ (fun h => nomatch h)
    intro h
    obtain ⟨_, _, _, h⟩ := Run.bind_ok (Prod.ext h rfl)
    rw [Conversion.run] at h
    obtain ⟨_, _, hnone⟩ := Run.map_ok h
    cases hnone
  | elements more ih => exact iff_of_false run_elements_ne_none fun h => nomatch h
  | _ =>
    rw [Conversion.run]
    exact iff_of_false run_some_ne_none fun h => nomatch h

/-- **A converted sequence** has one element for each element of the source: what
the conversion gives for it, or the zero of the target's elements. -/
theorem run_elements_ok {next : Conversion} {out : Option Value} {call call' : Call ω}
    (h : ((elements a b next).run σ parameter handedOn nest v).run call = (.ok out, call')) :
    ∃ items results, v.items? a = some items ∧
      (items.mapM (next.run σ parameter handedOn nest)).run call = (.ok results, call') ∧
      results.length = items.length ∧
      out = some (.seq b (results.map (·.getD (Value.zero σ b)))) := by
  rw [Conversion.run] at h
  obtain ⟨items, _, hitems, h⟩ := Run.bind_ok h
  obtain ⟨converted, _, hconverted, h⟩ := Run.bind_ok h
  obtain ⟨collected, hcollected, rfl⟩ := Run.map_ok h
  cases hv : v.items? a with
  | none =>
    rw [hv] at hitems
    cases hitems
  | some found =>
    rw [hv] at hitems
    cases hitems
    cases hc : Value.collect? b converted with
    | none =>
      rw [hc] at hcollected
      cases hcollected
    | some whole =>
      rw [hc] at hcollected
      cases hcollected
      -- The zeros are put in after the fact: the results are those of the elements.
      obtain ⟨results, hresults, rfl, hlen⟩ := Run.mapM_ok hconverted
      unfold Value.collect? at hc
      split at hc
      · cases hc
        exact ⟨_, results, rfl, hresults, hlen, rfl⟩
      · cases hc

end Conversion

end RecordMap
