import RecordMap.Context
import RecordMap.Script.Plain

/-!
# Scripts

A script is a callback given as data.  There are three kinds: a *producer* makes
a value, a *test* decides, and *actions* change a record.  All of them see the
data of the callback through a `View`, and speak of it in *templates*: texts
with holes for members, for the input, for the parameter and for scratch values.

What a callback does not have is missing from its view.  A hole for something
missing is filled with a question mark, one for a missing scratch value with the
word `nil`.
-/

namespace RecordMap.Script

/-! ## §1. Views and templates -/

/-- The data a callback sees. -/
structure View where
  source : Option Value := none
  destination : Option Value := none
  parameter : Option Value := none
  input : Option Value := none
  scratch : Option Scratch := none

/-- A part of a template. -/
inductive Part where
  | literal (s : String)
  /-- A member of the source. -/
  | source (field : String)
  /-- A member of the destination. -/
  | destination (field : String)
  | parameter
  | input
  /-- The scratch value of a type under a key. -/
  | scratch (type : Ty) (key : String)
  deriving Repr

/-- A text with holes. -/
abbrev Template := List Part

/-- The first member of a name, whether readable or not, with its position. -/
def field? (σ : Schema) (record : Value) (name : String) : Option (Nat × Field) :=
  match record with
  | .record r _ => ((σ.fields r).zipIdx.find? (·.1.name == name)).map fun (f, i) => (i, f)
  | _ => none

/-- The value of the first member of a name. -/
def memberOf? (σ : Schema) (record : Value) (name : String) : Option Value := do
  let (i, _) ← field? σ record name
  match record with
  | .record _ members => members[i]?
  | _ => none

/-- What fills a hole for an optional value. -/
def fill (σ : Schema) (v : Option Value) (missing : String) : String :=
  (v.map (·.plain σ)).getD missing

/-- The text of a part. -/
def Part.text (σ : Schema) (view : View) : Part → String
  | literal s => s
  | source f => fill σ (view.source.bind (memberOf? σ · f)) "?"
  | destination f => fill σ (view.destination.bind (memberOf? σ · f)) "?"
  | parameter => fill σ view.parameter "?"
  | input => fill σ view.input "?"
  | scratch t key => fill σ (view.scratch.bind (·.get? t key)) "nil"

/-- **The text of a template** in a view. -/
def Template.text (σ : Schema) (view : View) (t : Template) : String :=
  String.join (t.map (Part.text σ view))

/-! ## §2. Producers -/

/-- How a value is produced. -/
inductive Expr where
  | constant (v : Value)
  /-- A copy of a source member, if it has the very type asked for. -/
  | member (field : String)
  /-- What a text stands for. -/
  | written (t : Template)
  deriving Repr

/-- The value of a type that an expression produces. -/
def Expr.eval (σ : Schema) (type : Ty) (view : View) : Expr → Value
  | constant v => v
  | member f =>
      ((view.source.bind (memberOf? σ · f)).bind (·.as? type)).getD (Value.zero σ type)
  | written t => Value.ofPlain σ (t.text σ view) type

/-- A script that makes a value.  Before it does, it may store a text in the
scratch store. -/
structure Producer where
  store : Option (String × Template) := none
  expr : Expr
  deriving Repr

namespace Producer

/-- The scratch store after the text has been stored. -/
def stored (σ : Schema) (p : Producer) (view : View) (scratch : Scratch) : Scratch :=
  match p.store with
  | some (key, t) => scratch.insert key (.text (t.text σ view))
  | none => scratch

/-- **Producing** a value of a type without a scratch store. -/
def produce (σ : Schema) (type : Ty) (p : Producer) (view : View) : Value :=
  p.expr.eval σ type view

/-- Producing a value with a scratch store. -/
def produceWith (σ : Schema) (type : Ty) (p : Producer) (view : View) (scratch : Scratch) :
    Value × Scratch :=
  let scratch := p.stored σ { view with scratch } scratch
  (p.expr.eval σ type { view with scratch }, scratch)

end Producer

/-- When a fallible producer fails, and with which text. -/
structure Refusal where
  cause : String
  /-- The only input that is refused; without one, every input is. -/
  only : Option String := none
  deriving Repr

/-- The input with the given plain text is refused. -/
def Refusal.applies (r : Refusal) (input : String) : Bool :=
  match r.only with
  | some s => s == input
  | none => true

/-! ## §3. Tests -/

/-- A script that decides: by a fixed answer, or by whether a template comes out
as a given text. -/
structure Test where
  answer : Bool := true
  comparison : Option (Template × String) := none
  deriving Repr

/-- **The decision** of a test. -/
def Test.holds (σ : Schema) (t : Test) (view : View) : Bool :=
  match t.comparison with
  | some (template, s) => (template.text σ view == s) == t.answer
  | none => t.answer

/-! ## §4. Actions -/

/-- A change to the destination or to the scratch store. -/
inductive Action where
  /-- Set the first member of a name to a value of its type. -/
  | set (field : String) (v : Value)
  /-- Append to a text member. -/
  | append (field : String) (t : Template)
  /-- Store a value of a type under a key. -/
  | put (key : String) (type : Ty) (t : Template)
  /-- Empty a key. -/
  | remove (key : String) (type : Ty)
  deriving Repr

/-- A record with its first member of a name changed. -/
def updateMember (σ : Schema) (record : Value) (name : String) (new : Value → Value) : Value :=
  match field? σ record name, memberOf? σ record name with
  | some (i, f), some old => (record.assign? f.type i (new old)).getD record
  | _, _ => record

/-- The text with more text behind it; any other value as it is. -/
def appendText (more : String) : Value → Value
  | .text s => .text (s ++ more)
  | v => v

/-- **The effect of an action** on a view.  What the action changes and the view
lacks stays missing. -/
def Action.run (σ : Schema) (view : View) : Action → View
  | set name v =>
      { view with
        destination := view.destination.map fun d => updateMember σ d name fun _ => v }
  | append name t =>
      { view with
        destination := view.destination.map fun d =>
          updateMember σ d name (appendText (t.text σ view)) }
  | put key type t =>
      { view with
        scratch := view.scratch.map (·.insert key (Value.ofPlain σ (t.text σ view) type)) }
  | remove key _ => { view with scratch := view.scratch.map (·.erase key) }

/-- The view after actions in order. -/
def runAll (σ : Schema) (actions : List Action) (view : View) : View :=
  actions.foldl (Action.run σ) view

end RecordMap.Script
