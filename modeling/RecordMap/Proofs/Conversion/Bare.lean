import RecordMap.Proofs.Conversion.Wrapper

/-!
# Conversions without converters

Between wrapped records, a scope without converters and operators has one way only: to open and
close options, walk sequences, and construct the records inside through their own mapping.  That
is what a nesting conversion does (`Scope.Bare.resolve_eq_nesting`), so the two searches find the
same conversion or none, also where the containers on the two sides do not match.
-/

namespace RecordMap

/-- Wrapped leaf types that are the same have the same leaf. -/
theorem Wrapper.leaf_of_ty_eq {a b : Ty} (ha : a.isContainer = false) (hb : b.isContainer = false) :
    ∀ {W V : Wrapper}, W.ty a = V.ty b → a = b
  | .bare, .bare, h => h
  | .bare, .option _, h | .bare, .seq _, h => by
    rw [show a = _ from h] at ha
    cases ha
  | .option _, .bare, h | .seq _, .bare, h => by
    rw [show b = _ from h.symm] at hb
    cases hb
  | .option _, .option _, h => leaf_of_ty_eq ha hb (Ty.option.inj h)
  | .seq _, .seq _, h => leaf_of_ty_eq ha hb (Ty.seq.inj h)
  | .option _, .seq _, h | .seq _, .option _, h => by cases h

namespace Scope

variable {S : Scope}

/-- There are no converters and no operators. -/
structure Bare (S : Scope) : Prop where
  mapping : S.mapping.entries = []
  defaults : S.defaults.entries = []
  operators : S.operators.entries = []

theorem Bare.converter? (hS : S.Bare) (a b : Ty) : S.converter? a b = none := by
  simp [Scope.converter?, ConverterTable.get?, hS.mapping, hS.defaults]

theorem Bare.operator? (hS : S.Bare) (a b : Ty) : S.operator? a b = none := by
  simp [Scope.operator?, ConverterTable.get?, hS.operators]

/-- A chain around a lookup that finds nothing. -/
theorem chain_eq_none {lookup : Ty → Ty → Option Conversion} (h : ∀ a b, lookup a b = none)
    (wrapSource : Bool) (a b : Ty) : chain lookup wrapSource a b = none := by
  have hopenings : openings lookup a b = none := by
    unfold openings
    split <;> simp [h]
  simp [chain, closing, h, hopenings]

theorem Bare.custom? (hS : S.Bare) (a b : Ty) : S.custom? a b = none := by
  simp [Scope.custom?, chain_eq_none hS.converter?, chain_eq_none hS.operator?]

/-- **Between wrapped records of different names** the search finds the nesting conversion, or
neither finds any.  The recursion goes into both wrappers, as far as they match. -/
theorem Bare.resolve_eq_nesting (hS : S.Bare) {r s : String} (hrs : r ≠ s) (W V : Wrapper) :
    S.resolve (W.ty (.record r)) (V.ty (.record s)) =
      nesting S.profile (W.ty (.record r)) (V.ty (.record s)) := by
  have hne : W.ty (.record r) ≠ V.ty (.record s) := by
    intro h
    exact hrs (Ty.record.inj (Wrapper.leaf_of_ty_eq rfl rfl h))
  unfold resolve
  rw [if_neg hne, hS.custom?, Option.none_or]
  unfold nesting
  match W, V with
  | .bare, .bare => rfl
  | .bare, .seq _ => rfl
  | .seq _, .bare => rfl
  | .option W, .option V => exact congrArg (Option.map _) (Bare.resolve_eq_nesting hS hrs W V)
  | .option W, .bare => exact congrArg (Option.map _) (Bare.resolve_eq_nesting hS hrs W .bare)
  | .option W, .seq V => exact congrArg (Option.map _) (Bare.resolve_eq_nesting hS hrs W V.seq)
  | .bare, .option V => exact congrArg (Option.map _) (Bare.resolve_eq_nesting hS hrs .bare V)
  | .seq W, .option V => exact congrArg (Option.map _) (Bare.resolve_eq_nesting hS hrs W.seq V)
  | .seq W, .seq V => exact congrArg (Option.map _) (Bare.resolve_eq_nesting hS hrs W V)
termination_by sizeOf W + sizeOf V

end Scope

end RecordMap
