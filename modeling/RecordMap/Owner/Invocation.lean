import RecordMap.Owner

/-!
# Invocations

An invocation is one call of a mapper as data: the calling shape with its
arguments.  Its outcome says what became of the destination, whether the call
succeeded or not.
-/

namespace RecordMap

/-- A call of a mapper with its arguments. -/
inductive Invocation where
  | construct (source : Value)
  | constructWith (source parameter : Value)
  /-- The source may be absent. -/
  | constructOption (source : Option Value)
  /-- As a nested mapping would be called. -/
  | constructAny (source : Value) (parameter : Option Value)
  | update (source destination : Value)
  | updateWith (source parameter destination : Value)
  /-- The source may be absent. -/
  | updateOption (source : Option Value) (destination : Value)
  deriving Repr

/-- What comes of an invocation. -/
inductive Outcome where
  /-- A record was constructed, or none from an absent source. -/
  | constructed (v : Option Value)
  /-- A construction failed. -/
  | failed (e : MapError)
  /-- The destination as the call left it, with the failure if it failed. -/
  | updated (destination : Value) (failure : Option MapError)
  deriving Repr

namespace Outcome

/-- The outcome of a construction. -/
def ofConstruct : Except MapError (Option Value) → Outcome
  | .ok v => constructed v
  | .error e => failed e

/-- The outcome of an update that left a destination. -/
def ofUpdate (destination : Value) : Except MapError Unit → Outcome
  | .ok () => updated destination none
  | .error e => updated destination (some e)

end Outcome

namespace Invocation

/-- The destination an updating call is given. -/
def destination? : Invocation → Option Value
  | update _ d | updateWith _ _ d | updateOption _ d => some d
  | _ => none

end Invocation

namespace Owner

/-- **Invoking** an instance, with the nested mappers of the owner. -/
def invoke (o : Owner) (id : Nat) (i : Invocation) (t : Trail State) : Outcome × Trail State :=
  let σ := o.schema
  let nest := o.nest o.nestingLimit id
  let constructing (f : Mapper → Run (Trail State) (Option Value)) :=
    let (r, t) := (mapper id >>= f).run t
    (Outcome.ofConstruct r, t)
  let updating (d : Value) (f : Mapper → Run (Specification.Updating State) Unit) :=
    match (mapper id).run t with
    | (.ok m, t) =>
        let (r, u) := (f m).run { destination := d, trail := t }
        (Outcome.ofUpdate u.destination r, u.trail)
    | (.error e, t) => (Outcome.updated d (some e), t)
  match i with
  | .construct s => constructing fun m => some <$> m.construct σ nest s
  | .constructWith s p => constructing fun m => some <$> m.constructWith σ nest s p
  | .constructOption s => constructing fun m => m.constructOption σ nest s
  | .constructAny s p => constructing fun m => some <$> m.constructAny σ nest s p
  | .update s d => updating d fun m => m.update σ nest s
  | .updateWith s p d => updating d fun m => m.updateWith σ nest s p
  | .updateOption s d => updating d fun m => m.updateOption σ nest s

end Owner

end RecordMap
