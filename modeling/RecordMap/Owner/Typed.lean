import RecordMap.Owner

/-!
# Typed requests

The registry keeps instances of all types.  A typed request names two records, and
what the registry gives is cast down to a mapper between them.  The cast checks the
types of the instance itself and fails if they are not the ones asked for.
-/

namespace RecordMap

/-- The failure of a typed request: no mapper could be had, or it has other types. -/
inductive MapperError where
  | build (e : BuildError)
  | map (e : MapError)
  deriving DecidableEq, Repr

namespace Owner

/-- The pairing of two records under a profile. -/
def recordPairing (source destination : String) (profile : Option String) : Pairing :=
  ⟨.record source, .record destination, profile⟩

/-- The display name of the mappers between two records. -/
def mapperName (o : Owner) (source destination : String) : String :=
  "CompiledMapper<" ++ o.schema.name (.record source) ++ ", " ++
    o.schema.name (.record destination) ++ ">"

/-- **The downcast** of an instance to a mapper between two records. -/
def downcast (o : Owner) (s : State) (source destination : String) (id : Nat) :
    Except MapError Nat :=
  let fits := (mapper? s id).any fun m =>
    m.spec.source = source ∧ m.spec.destination = destination
  if fits then .ok id else .error (.typeMismatch (o.mapperName source destination))

/-- The mapper between two records, built if it is not there yet. -/
def mapperFor (o : Owner) (source destination : String) (profile : Option String)
    (t : Trail State) : Except MapperError Nat × Trail State :=
  match o.request (recordPairing source destination profile) t with
  | (.ok id, t) => ((o.downcast t.outside source destination id).mapError .map, t)
  | (.error e, t) => (.error (.build e), t)

/-- The mapper between two records on behalf of a running mapper. -/
def callable (o : Owner) (source destination : String) (profile : Option String) :
    Run (Trail State) Nat := do
  let id ← o.requestNested (recordPairing source destination profile)
  ExceptT.mk fun t => (o.downcast t.outside source destination id, t)

/-- The mapper between two records if it has been built. -/
def tryMapper (o : Owner) (source destination : String) (profile : Option String) (s : State) :
    Option Nat × State :=
  let (found, s) := o.tryRequest (recordPairing source destination profile) s
  (found.bind fun id => (o.downcast s source destination id).toOption, s)

end Owner

end RecordMap
