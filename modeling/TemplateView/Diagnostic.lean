/-
What can go wrong while a template is compiled, and how it is shown. A source error has a position: either the next
token was not the one required, or a rule of the grammar was broken. A generation error has none; it carries the text of
the program built so far.

Each rule of the grammar that can be broken has a function here that words its error.
-/
import TemplateView.Token
import TemplateView.Operator

namespace TemplateView

/-! ## Errors with a position -/

/-- the next token was not the one required -/
structure LexError where
  position : Position
  expected : String
  found : String
deriving DecidableEq, Repr

namespace LexError

/-- the error without its place -/
def brief (e : LexError) : String :=
  s!"expected {e.expected} but found {e.found}"

def message (e : LexError) : String :=
  s!"{e.brief} at {e.position.text}"

end LexError

/-- the rules of the grammar that can be broken, and `noProgress` for a parser that consumed nothing -/
inductive ErrorKind where
  | unexpectedToken
  | unexpectedEndOfInput
  | mismatchedCloseTag
  | unclosedElement
  | invalidLoopCollection
  | invalidForInitializer
  | unknownDirective
  | noProgress
deriving DecidableEq, Repr

def ErrorKind.title : ErrorKind → String
  | .unexpectedToken => "Unexpected token"
  | .unexpectedEndOfInput => "Unexpected end of input"
  | .mismatchedCloseTag => "Mismatched close tag"
  | .unclosedElement => "Unclosed element"
  | .invalidLoopCollection => "Invalid loop collection"
  | .invalidForInitializer => "Invalid for initializer"
  | .unknownDirective => "Unknown directive"
  | .noProgress => "No progress"

/-- a rule of the grammar was broken -/
structure ParseError where
  kind : ErrorKind
  message : String
  position : Position
  help : Option String
deriving DecidableEq, Repr

namespace ParseError

/-- the message with its place -/
def located (e : ParseError) : String :=
  s!"{e.message} at {e.position.text}"

def unclosedElement (tag : String) (start : Position) : ParseError :=
  ⟨.unclosedElement, s!"`<{tag}>` is never closed", start, some s!"Add `</{tag}>` after the element's content"⟩

def mismatchedCloseTag (tag closing : String) (start position : Position) : ParseError :=
  ⟨.mismatchedCloseTag, s!"expected `</{tag}>` but found `</{closing}>`", position,
    some s!"`<{tag}>` was opened at {start.text}; close it before `</{closing}>`"⟩

def unfinishedTag (tag : String) (start : Position) : ParseError :=
  ⟨.unexpectedEndOfInput, s!"start tag `<{tag}` is never finished", start, some "End the tag with `>` or `/>`"⟩

def unclosedAttribute (quote : String) (start : Position) : ParseError :=
  ⟨.unexpectedEndOfInput, "attribute value is never closed", start, some s!"Close the value with `{quote}`"⟩

def codeInAttribute (position : Position) : ParseError :=
  ⟨.unexpectedToken, "only expressions are allowed inside attribute values", position,
    some "Compute the value in a `@\x7b \x7d` block first and write `@name` here"⟩

def unclosedHtmlComment (start : Position) : ParseError :=
  ⟨.unexpectedEndOfInput, "HTML comment is never closed", start, some "Close the comment with `-->`"⟩

def unclosedDeclaration (start : Position) : ParseError :=
  ⟨.unexpectedEndOfInput, "`<!` declaration is never closed", start, none⟩

def unknownDirective (found : Token) : ParseError :=
  ⟨.unknownDirective, s!"expected an expression, block or directive after `@` but found {found.describe}", found.position,
    some "Write `@@` for a literal `@`"⟩

def unclosedComment (start : Position) : ParseError :=
  ⟨.unexpectedEndOfInput, "comment is never closed", start, some "Close the comment with `*@`"⟩

def unclosedBlock (start : Position) : ParseError :=
  ⟨.unexpectedEndOfInput, "block is never closed", start, some "Add the closing `\x7d`"⟩

def undeclaredCounter (found : Token) : ParseError :=
  ⟨.invalidForInitializer, s!"a for loop must declare its counter, found {found.describe}", found.position,
    some "Write `for (var i = 0; i < n; i++) \x7b ... \x7d`"⟩

def computedCollection (start : Position) : ParseError :=
  ⟨.invalidLoopCollection, "foreach can only iterate over a variable or a member of one", start,
    some "Assign the collection first: `var items = ...;` then `foreach (var item in items)`"⟩

def missingExpression (finish : Position) : ParseError :=
  ⟨.unexpectedEndOfInput, "expected an expression but the template ended", finish, none⟩

def notAnExpression (found : Token) : ParseError :=
  ⟨.unexpectedToken, s!"expected an expression but found {found.describe}", found.position, none⟩

def unclosedString (quote : Token) : ParseError :=
  ⟨.unexpectedEndOfInput, "string literal is never closed", quote.position,
    some s!"Close the string with {quote.text}"⟩

def noProgress (position : Position) : ParseError :=
  ⟨.noProgress, "nothing was consumed", position, none⟩

end ParseError

/-- an error of the source text -/
inductive SourceError where
  | lexical (e : LexError)
  | grammatical (e : ParseError)
deriving DecidableEq, Repr

def SourceError.position : SourceError → Position
  | .lexical e => e.position
  | .grammatical e => e.position

/-! ## Errors of the generator -/

/-- why a parsed template has no program -/
inductive GenerationCause where
  /-- a helper is declared twice -/
  | duplicateHelper (name : String)
  /-- a section is declared twice -/
  | duplicateSection (name : String)
  /-- a local variable is called -/
  | calledLocal (name : String)
  /-- something that is neither a name nor a member is called -/
  | notCallable
  /-- an update of something that is not a declared local -/
  | updateTarget (step : Step)
  /-- an assignment to something that is not a declared local -/
  | assignTarget
  /-- a literal that stands for no value -/
  | invalidLiteral (raw : String)
  /-- an operator with one operand that programs do not have -/
  | unsupportedUnary (operator : String)
  /-- an operator with two operands that programs do not have -/
  | unsupportedOperator (operator : String)
  /-- markup written while code is generated -/
  | strayMarkup (text : String)
  /-- a cause reported in the caller's own words -/
  | reported (message : String)
deriving DecidableEq, Repr

def GenerationCause.message : GenerationCause → String
  | .duplicateHelper name => s!"helper `{name}` is declared more than once"
  | .duplicateSection name => s!"section `{name}` is declared more than once"
  | .calledLocal name => s!"local `{name}` cannot be called"
  | .notCallable => "only helpers and methods can be called"
  | .updateTarget step => s!"`{step.text}` needs a declared local variable"
  | .assignTarget => "only declared local variables can be assigned"
  | .invalidLiteral raw => s!"`{raw}` is not a valid literal"
  | .unsupportedUnary operator => s!"unsupported unary operator `{operator}`"
  | .unsupportedOperator operator => s!"unsupported operator `{operator}`"
  | .strayMarkup text => s!"markup {Text.literal text} written while lowering code"
  | .reported message => message

/-- a generation that failed, with the text of the program built so far -/
structure GenerationError where
  cause : GenerationCause
  program : String
deriving DecidableEq, Repr

/-! ## All compile errors, shown -/

/-- why a template does not compile -/
inductive CompileError where
  | source (e : SourceError)
  | generation (e : GenerationError)
deriving DecidableEq, Repr

def CompileError.position? : CompileError → Option Position
  | .source e => some e.position
  | .generation _ => none

def CompileError.message : CompileError → String
  | .source (.lexical e) => s!"syntax error: {e.message}"
  | .source (.grammatical e) => s!"parse error: {e.located}"
  | .generation e => s!"generation error: {e.cause.message}"

/-- help text, its further lines indented under the first -/
def renderHelp (help : String) : String :=
  match Text.lines help with
  | [] => "\n"
  | l :: ls => "\n" ++ s!" help: {l}\n" ++ String.join (ls.map fun l => s!"       {l}\n")

/-- a message with its place, the line of the source and help -/
def renderAt (source file : String) (p : Position) (message : String) (help : Option String) : String :=
  s!"\n file: {file}:{p.line + 1}:{p.column + 1}\nerror: {message}\n"
    ++ (snippet source p 1).getD "" ++ (help.map renderHelp).getD "" ++ "\n"

def LexError.render (e : LexError) (source file : String) : String :=
  renderAt source file e.position e.brief none

def ParseError.render (e : ParseError) (source file : String) : String :=
  renderAt source file e.position s!"{e.kind.title}: {e.message}" e.help

def GenerationError.render (e : GenerationError) (file : String) : String :=
  let program :=
    if e.program.isEmpty then ""
    else "\n program so far:\n" ++ String.join ((Text.lines e.program).map fun l => s!"    {l}\n")
  s!"\n file: {file}\nerror: {e.cause.message}\n" ++ program ++ "\n"

def CompileError.render (e : CompileError) (source file : String) : String :=
  match e with
  | .source (.lexical e) => e.render source file
  | .source (.grammatical e) => e.render source file
  | .generation e => e.render file

end TemplateView
