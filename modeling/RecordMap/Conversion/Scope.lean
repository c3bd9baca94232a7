import RecordMap.Conversion.Basic
import RecordMap.ConverterTable

/-!
# Finding conversions

The conversions a mapping can use are fixed by its *scope*: its own converters,
those of the defaults, the operators of the defaults, and its profile.  For a
source and a target type the lookup is

1. the types are the same: copy;
2. a converter, of the mapping before the defaults, through the option chain;
3. an operator, through the same chain;
4. a built-in step: open and close options, the primitive table, enumerations,
   sequences element by element, records through their own mapping.

The option chain asks for the exact pair, then for the source without its
option, the target without its option, both without, and, for converters only,
the source inside an option.
-/

namespace RecordMap

/-- The conversions visible to one mapping. -/
structure Scope where
  /-- Converters of the mapping itself. -/
  mapping : ConverterTable := {}
  /-- Converters of the defaults. -/
  defaults : ConverterTable := {}
  operators : ConverterTable := {}
  profile : Option String := none

namespace Scope

/-! ## §1. The option chain -/

/-- The converter for exactly these types, of the mapping before the defaults. -/
def converter? (S : Scope) (source target : Ty) : Option Conversion :=
  ((S.mapping.get? source target).or (S.defaults.get? source target)).map .converter

/-- The operator for exactly these types. -/
def operator? (S : Scope) (source target : Ty) : Option Conversion :=
  (S.operators.get? source target).map .operator

/-- The chain past the exact pair, for options on either side. -/
def openings (lookup : Ty → Ty → Option Conversion) (source target : Ty) : Option Conversion :=
  match source, target with
  | .option a, .option b =>
      ((lookup a target).map (.unwrap a)).or <|
        ((lookup source b).map (.wrap b)).or <|
          (lookup a b).map fun c => .unwrap a (.wrap b c)
  | .option a, _ => (lookup a target).map (.unwrap a)
  | _, .option b => (lookup source b).map (.wrap b)
  | _, _ => none

/-- The last link of the chain: the source inside an option. -/
def closing (lookup : Ty → Ty → Option Conversion) (source target : Ty) : Option Conversion :=
  source.wrapped?.bind fun wrapped => (lookup wrapped target).map (.wrapSource source)

/-- **The option chain** around a lookup. -/
def chain (lookup : Ty → Ty → Option Conversion) (wrapSource : Bool) (source target : Ty) :
    Option Conversion :=
  (lookup source target).or <|
    (openings lookup source target).or <|
      if wrapSource then closing lookup source target else none

/-- A converter or an operator for the pair, through the chain. -/
def custom? (S : Scope) (source target : Ty) : Option Conversion :=
  (chain S.converter? true source target).or (chain S.operator? false source target)

/-! ## §2. Built-in steps -/

/-- The built-in step between two types that are neither options nor sequences. -/
def leaf? (S : Scope) : Ty → Ty → Option Conversion
  | .prim a, .prim b => if a.convertsTo b then some (.primitive a b) else none
  | .enum e, .prim b => if b = .text ∨ b.isIntegral then some (.fromEnum e b) else none
  | .prim a, .enum e => if a = .text ∨ a.isIntegral then some (.toEnum a e) else none
  | .enum a, .enum b => some (.enumToEnum a b)
  | .record a, .record b => some (.nested ⟨.record a, .record b, S.profile⟩)
  | _, _ => none

/-! ## §3. Resolution -/

/-- **The conversion between two types**, or none when there is no path. -/
def resolve (S : Scope) (source target : Ty) : Option Conversion :=
  if source = target then some (.passThrough source)
  else
    (S.custom? source target).or <|
      match source, target with
      | .option a, .option b => (resolve S a b).map fun c => .unwrap a (.wrap b c)
      | .option a, b => (resolve S a b).map (.unwrap a)
      | a, .option b => (resolve S a b).map (.wrap b)
      | .seq a, .seq b => (resolve S a b).map (.elements a b)
      | a, b => S.leaf? a b
termination_by sizeOf source + sizeOf target

/-- **The nesting conversion** between two types: only options, sequences and, at
the leaf, the mapper of two record types under the given profile. -/
def nesting (profile : Option String) (source target : Ty) : Option Conversion :=
  match source, target with
  | .option a, .option b => (nesting profile a b).map fun c => .unwrap a (.wrap b c)
  | .option a, b => (nesting profile a b).map (.unwrap a)
  | a, .option b => (nesting profile a b).map (.wrap b)
  | .seq a, .seq b => (nesting profile a b).map (.elements a b)
  | .record a, .record b => some (.nested ⟨.record a, .record b, profile⟩)
  | _, _ => none
termination_by sizeOf source + sizeOf target

end Scope

end RecordMap
