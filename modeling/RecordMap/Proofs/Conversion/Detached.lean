import RecordMap.Plan.Search
import RecordMap.Proofs.Mapper.Blind

/-!
# Conversions outside of any call

When a mapping is resolved, its constants and sentinels are converted outside of any call: there
is no parameter, no store but an empty one, and no nested mapper.  A conversion that is *detached*
looks at none of these.  So what it gives for a value is settled when the mapping is resolved: it
is the same in every call (`Conversion.Detached.run_eq`).
-/

namespace RecordMap

variable {ω : Type} {σ : Schema} {q r handedOn : Option Value} {nest : Nesting ω}

/-- **The converter looks at its value alone**: its body is not over the context, and it declares
no parameter. -/
structure Converter.Detached (k : Converter) : Prop where
  plain : k.usesContext = false
  undeclared : k.parameter? = none

/-- **The conversion looks at its value alone**: it leads to no nested mapper, and its converters
look at theirs. -/
structure Conversion.Detached (c : Conversion) : Prop where
  flat : c.pairings = []
  converters : ∀ k ∈ c.converters, k.Detached

theorem Converter.Detached.blind {k : Converter} (h : k.Detached) : k.Blind := by
  intro f hbody
  have hplain := h.plain
  unfold usesContext at hplain
  rw [hbody] at hplain
  cases hplain

/-- A detached converter does the same in a call as in another one of whatever kind, with any
parameter. -/
theorem Converter.Detached.simulates {k : Converter} (h : k.Detached) {ω' : Type}
    {esc : MapError → Call ω → Prop} (v : Value) :
    Run.Simulates (fun (_ : Call ω) (_ : Call ω') => True) esc (k.apply σ q v)
      (k.apply σ r v) := by
  rw [k.apply_of_blind (q := q) (r := r) h.undeclared h.blind v]
  refine k.simulates_apply (fun _ _ _ _ => trivial) ?_ v
  intro hcontext
  rw [h.plain] at hcontext
  cases hcontext

namespace Conversion

theorem Detached.isNested_eq_false {c : Conversion} (h : c.Detached) : c.isNested = false := by
  rw [← Bool.not_eq_true, isNested_iff]
  exact not_not_intro h.flat

/-- **A detached conversion** gives in every call what it gives outside of any. -/
theorem Detached.run_eq {c : Conversion} (h : c.Detached) (v : Value) (call : Call ω) :
    ((c.run σ q handedOn nest v).run call).1 = (c.evaluate σ v).1 := by
  have hsame : Run.Simulates (fun (_ : Call ω) (_ : Call Unit) => True) (fun _ _ => False)
      (c.run σ q handedOn nest v) (c.run σ none none unreachable v) := by
    refine c.simulates_leaves (fun k hk v => (h.converters k hk).simulates v) (fun p hp => ?_) v
    rw [h.flat] at hp
    cases hp
  exact (hsame.lockstep call { trail := { outside := () } } trivial).1

end Conversion

end RecordMap
