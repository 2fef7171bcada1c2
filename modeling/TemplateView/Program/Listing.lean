/-
Programs as text, in the form of functions that build an array of markup. The text is for readers: it shows every
operation and expression, and error reports carry it. Lines are gathered in a listing, which knows its indentation.
-/
import TemplateView.Position
import TemplateView.Program

namespace TemplateView

/-! ## Lines -/

/-- text under construction: the finished lines, the line in hand, the depth of indentation -/
structure Listing where
  finished : String
  current : String
  depth : Nat

namespace Listing

def empty : Listing := ⟨"", "", 0⟩

/-- text at the end of the line in hand; a line starts with its indentation -/
def push (l : Listing) (text : String) : Listing :=
  let line := if l.current.isEmpty then copies (4 * l.depth) ' ' else l.current
  { l with current := line ++ text }

/-- ends the line in hand -/
def newline (l : Listing) : Listing :=
  { l with finished := l.finished ++ l.current ++ "\n", current := "" }

/-- a whole line -/
def line (l : Listing) (text : String) : Listing :=
  (l.push text).newline

def indent (l : Listing) : Listing := { l with depth := l.depth + 1 }

def dedent (l : Listing) : Listing := { l with depth := l.depth - 1 }

/-- all lines, the unfinished one last -/
def text (l : Listing) : String :=
  l.finished ++ l.current

end Listing

/-! ## Expressions -/

/-- a character inside a string of the program text -/
def quoteChar (c : Char) : List Char :=
  match c with
  | '\\' => ['\\', '\\']
  | '"' => ['\\', '"']
  | '\r' => ['\\', 'r']
  | '\n' => ['\\', 'n']
  | c => [c]

/-- a string of the program text -/
def quoteString (s : String) : String :=
  "\"" ++ String.ofList (s.toList.flatMap quoteChar) ++ "\""

mutual

/-- a constant of the program text -/
def Value.source : Value → String
  | .string s => quoteString s
  | .raw s => quoteString s
  | .array items => "[" ++ Text.join ", " (Value.sources items) ++ "]"
  | v => v.text

def Value.sources : List Value → List String
  | [] => []
  | v :: vs => v.source :: Value.sources vs

end

mutual

/-- an expression of the program text -/
def Expr.source : Expr → String
  | .constant v => v.source
  | .local name => name
  | .model name => "model." ++ name
  | .modelRoot => "model"
  | .member object name => object.source ++ "." ++ name
  | .index target key => target.source ++ "[" ++ key.source ++ "]"
  | .callHelper name arguments => "helpers." ++ name ++ "(" ++ Text.join ", " (Expr.sources arguments) ++ ")"
  | .callMethod receiver name arguments =>
    receiver.source ++ "." ++ name ++ "(" ++ Text.join ", " (Expr.sources arguments) ++ ")"
  | .array items => "[" ++ Text.join ", " (Expr.sources items) ++ "]"
  | .unary .not operand => "!" ++ operand.source
  | .unary .negate operand => "-" ++ operand.source
  | .unary .new operand => "new " ++ operand.source
  | .update name step .before => step.text ++ name
  | .update name step .after => name ++ step.text
  | .binary left op right => "(" ++ left.source ++ " " ++ op.text ++ " " ++ right.source ++ ")"
  | .assign name value => name ++ " = " ++ value.source
  | .conditional test whenTrue whenFalse =>
    "(" ++ test.source ++ " ? " ++ whenTrue.source ++ " : " ++ whenFalse.source ++ ")"

def Expr.sources : List Expr → List String
  | [] => []
  | e :: es => e.source :: Expr.sources es

end

/-! ## Operations -/

/-- the initial value behind a variable -/
def initSource : Option Expr → String
  | some e => " = " ++ e.source
  | none => ""

mutual

/-- the lines of an operation -/
def Op.list (l : Listing) : Op → Listing
  | .text s => l.line ("html.push(" ++ quoteString s ++ ");")
  | .emit value => l.line ("html.push(escape(" ++ value.source ++ "));")
  | .beginAttribute opening => l.line ("beginAttribute(" ++ quoteString opening ++ ");")
  | .attributePart (.text s) => l.line ("attributePart(" ++ quoteString s ++ ");")
  | .attributePart (.value value) => l.line ("attributePart(" ++ value.source ++ ");")
  | .endAttribute closing => l.line ("endAttribute(" ++ quoteString closing ++ ");")
  | .declare name init => l.line ("var " ++ name ++ initSource init ++ ";")
  | .eval value => l.line (value.source ++ ";")
  | .branch test whenTrue whenFalse =>
    let l := (Op.listAll (l.line ("if (" ++ test.source ++ ") \x7b")).indent whenTrue).dedent
    let l := if whenFalse.isEmpty then l else (Op.listAll (l.line "\x7d else \x7b").indent whenFalse).dedent
    l.line "\x7d"
  | .loop counter init condition iteration body =>
    let head := "for (var " ++ counter ++ initSource init ++ "; " ++ condition.source ++ "; " ++ iteration.source ++ ") \x7b"
    ((Op.listAll (l.line head).indent body).dedent).line "\x7d"
  | .each item collection body =>
    ((Op.listAll (l.line ("for (var " ++ item ++ " of " ++ collection.source ++ ") \x7b")).indent body).dedent).line "\x7d"

/-- the lines of operations in order -/
def Op.listAll (l : Listing) : List Op → Listing
  | [] => l
  | op :: ops => Op.listAll (op.list l) ops

end

/-- a function with a first line, a body that builds and joins the markup, and a last mark -/
def functionSource (head last : String) (program : Program) : String :=
  let l := (Listing.empty.line head).indent.line "var html = [];"
  (((Op.listAll l program).line "return html.join(\"\");").dedent.push last).text

/-- the program of a view as text -/
def Program.source (program : Program) : String :=
  functionSource "function render(model) \x7b" "\x7d" program

/-- the program of a helper or section as text: an entry of a table -/
def Fragment.source (fragment : Fragment) (table name : String) : String :=
  functionSource (table ++ "." ++ name ++ " = function(" ++ Text.join ", " fragment.parameters ++ ") \x7b") "\x7d;"
    fragment.program

end TemplateView
