/-
The builder gathers the operations of one program. Markup text is held back until another operation comes, so that
neighbouring pieces of text become one operation. Bodies of control structures are built in frames of their own, each
with a scope of declared locals; there is always a frame and a scope.
-/
import TemplateView.Diagnostic
import TemplateView.Program.Listing

namespace TemplateView

/-- what the builder is writing -/
inductive Mode where
  | markup
  | code
deriving DecidableEq, Repr

/-- operations under construction -/
structure Builder where
  mode : Mode
  /-- the operations of the innermost body -/
  frame : List Op
  /-- the operations of the bodies around it, innermost first -/
  outer : List (List Op)
  /-- text not yet in an operation -/
  pending : String
  /-- the locals of the innermost scope -/
  scope : List String
  /-- the locals of the scopes around it, innermost first -/
  outerScopes : List (List String)

namespace Builder

def empty : Builder := ⟨.markup, [], [], "", [], []⟩

/-- a local of the innermost scope -/
def declare (b : Builder) (name : String) : Builder :=
  { b with scope := if b.scope.contains name then b.scope else name :: b.scope }

/-- a builder whose outermost scope holds some locals -/
def withLocals (locals : List String) : Builder :=
  locals.foldl declare empty

/-- declared in the innermost scope or one around it -/
def isDeclared (b : Builder) (name : String) : Bool :=
  b.scope.contains name || b.outerScopes.any (·.contains name)

def pushScope (b : Builder) : Builder :=
  { b with scope := [], outerScopes := b.scope :: b.outerScopes }

/-- leaves the innermost scope; the outermost stays -/
def popScope (b : Builder) : Builder :=
  match b.outerScopes with
  | s :: ss => { b with scope := s, outerScopes := ss }
  | [] => b

/-- text at the end of some operations, as part of the last one if that is text -/
def appendText (ops : List Op) (text : String) : List Op :=
  match ops.getLast? with
  | some (.text previous) => ops.dropLast ++ [.text (previous ++ text)]
  | _ => ops ++ [.text text]

/-- puts the pending text into the innermost body -/
def flush (b : Builder) : Builder :=
  if b.pending.isEmpty then b else { b with frame := appendText b.frame b.pending, pending := "" }

def startMarkup (b : Builder) : Builder := { b with mode := .markup }

def startCode (b : Builder) : Builder := { b.flush with mode := .code }

def push (b : Builder) (op : Op) : Builder :=
  let b := b.flush
  { b with frame := b.frame ++ [op] }

/-- starts the body of a control structure -/
def openBody (b : Builder) : Builder :=
  let b := b.flush
  { b with frame := [], outer := b.frame :: b.outer }.pushScope

/-- ends the innermost body and gives its operations; without an open body there are none, and the frame stays -/
def closeBody (b : Builder) : List Op × Builder :=
  let b := b.flush.popScope
  match b.outer with
  | f :: fs => (b.frame, { b with frame := f, outer := fs })
  | [] => ([], b)

/-- the operations of all frames, outermost first -/
def allOps (b : Builder) : List Op :=
  (b.frame :: b.outer).reverse.flatten

/-- the program; bodies left open follow the outermost operations -/
def finish (b : Builder) : Program :=
  b.flush.allOps

/-- the program built so far, as text -/
def partialSource (b : Builder) : String :=
  Program.source (b.allOps ++ if b.pending.isEmpty then [] else [.text b.pending])

/-- a failure at this point -/
def error (b : Builder) (cause : GenerationCause) : GenerationError :=
  ⟨cause, b.partialSource⟩

/-- markup text, which has no place in code -/
def literal (b : Builder) (text : String) : Except GenerationError Builder :=
  match b.mode with
  | .code => .error (b.error (.strayMarkup text))
  | .markup => .ok { b with pending := b.pending ++ text }

end Builder

end TemplateView
