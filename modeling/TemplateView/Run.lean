/-
Runs of a program. A run holds the variables in their scopes, the markup written so far, and the attribute whose parts
are being collected. It ends in an error of the template or, if a bound is set on the rounds of its loops, for want of
steps; both drop what was written.
-/
import TemplateView.Escape
import TemplateView.RenderError
import TemplateView.Scopes

namespace TemplateView

/-- an attribute under way: its text up to the value, and the parts that have text -/
structure OpenAttribute where
  opening : String
  parts : List String

/-- the state of one program while it runs -/
structure Run where
  scopes : Scopes
  html : String
  pending : Option OpenAttribute

/-- why a run ends early -/
inductive Halt where
  | error (e : RenderError)
  /-- a loop was not done within the bound on its rounds -/
  | outOfSteps
deriving DecidableEq, Repr

/-- what a run can read, and the calls it can make -/
structure Surroundings where
  model : Value
  /-- the value of a builtin or a helper for some arguments -/
  call : String → List Value → Except Halt Value
  /-- how often a loop may look at its condition -/
  steps : Nat

/-- an operation on a run -/
abbrev Execution := StateT Run (Except Halt)

namespace Run

def start : Run := ⟨.start, "", none⟩

/-- the attribute with one more part; parts without text are dropped, and so are parts of no attribute -/
def addPart (part : String) (r : Run) : Run :=
  if part.isEmpty then r
  else { r with pending := r.pending.map fun a => { a with parts := a.parts ++ [part] } }

/-- the text of an attribute with its parts between spaces, nothing if there are none -/
def attributeText (a : OpenAttribute) (closing : String) : String :=
  if a.parts.isEmpty then "" else a.opening ++ Text.join " " a.parts ++ closing

/-- writes the attribute and ends it -/
def closeAttribute (closing : String) (r : Run) : Run :=
  match r.pending with
  | none => r
  | some a => { r with html := r.html ++ attributeText a closing, pending := none }

end Run

namespace Execution

def fail {α : Type} (e : RenderError) : Execution α :=
  throw (.error e)

/-- the result of a computation on values -/
def ofResult {α : Type} : Except RenderError α → Execution α
  | .ok a => pure a
  | .error e => fail e

def ofOption {α : Type} (missing : RenderError) : Option α → Execution α
  | some a => pure a
  | none => fail missing

/-- writes markup -/
def write (markup : String) : Execution Unit :=
  modify fun r => { r with html := r.html ++ markup }

/-- changes the scopes -/
def changeScopes (f : Scopes → Scopes) : Execution Unit :=
  modify fun r => { r with scopes := f r.scopes }

/-- the value of a variable -/
def lookup (name : String) : Execution Value := do
  ofOption (.undefinedLocal name) ((← get).scopes.lookup? name)

/-- a new value for a variable -/
def assign (name : String) (v : Value) : Execution Unit := do
  let scopes ← ofOption (.undefinedLocal name) ((← get).scopes.assign? name v)
  modify fun r => { r with scopes }

/-- an operation in a scope of its own -/
def inScope (m : Execution Unit) : Execution Unit := do
  changeScopes .enter
  m
  changeScopes .leave

/-- repeats a body while a condition holds, looking at it at most so many times -/
def repeatWhile (condition : Execution Bool) (body : Execution Unit) : Nat → Execution Unit
  | 0 => throw .outOfSteps
  | n + 1 => do
    if ← condition then
      body
      repeatWhile condition body n

end Execution

end TemplateView
