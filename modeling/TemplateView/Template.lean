/-
Parsed templates. A template is a list of segments: pieces of markup, expressions written in it with `@`, and code.
Whitespace fields hold the exact whitespace that stood there, so that markup can be written out as it was read.

The tree holds more than a source can write: any text may stand as an operator, an attribute may have values without a
quote, and an `if` may have both a further `if` and an `else`.
-/
import TemplateView.Position
import TemplateView.Operator

namespace TemplateView

/-! ## Expressions -/

/-- an expression of the embedded language -/
inductive Expression where
  /-- a bare name -/
  | name (name : String) (position : Position)
  /-- `object.name` -/
  | member (object : Expression) (name : String) (position : Position)
  /-- a literal as written, a string with its quotes and escapes -/
  | literal (raw : String)
  /-- `callee(arguments)` -/
  | call (callee : Expression) (arguments : List Expression)
  /-- `target[key]` -/
  | index (target key : Expression)
  /-- `[items]` -/
  | array (items : List Expression)
  /-- an operator before or after its operand -/
  | unary (operator : String) (fixity : Fixity) (operand : Expression)
  /-- an operator between two operands; an assignment has this form too -/
  | binary (left : Expression) (operator : String) (right : Expression)
  /-- `test ? whenTrue : whenFalse` -/
  | conditional (test whenTrue whenFalse : Expression)
deriving Repr

/-- a name or a member of something -/
def Expression.isAccess : Expression → Bool
  | .name .. => true
  | .member .. => true
  | _ => false

/-- `var name = init`, or without the initializer -/
structure Declaration where
  name : String
  init : Option Expression
deriving Repr

/-- an expression written in markup, and the whitespace before its `@` -/
structure InlineExpression where
  expression : Expression
  leading : String
deriving Repr

/-! ## Tags -/

/-- a piece of an attribute value -/
inductive ValuePart where
  | text (text : String)
  | inline (inline : InlineExpression)
deriving Repr

def ValuePart.isInline : ValuePart → Bool
  | .text _ => false
  | .inline _ => true

/-- an attribute with the whitespace before it -/
structure Attribute where
  leading : String
  name : String
  /-- `=` with the whitespace around it, nothing if there is no value -/
  separator : String
  /-- the quote around the value; `disabled` has none -/
  quote : Option Char
  values : List ValuePart
deriving Repr

/-- a start tag without its end: the whitespace before it, the name, the attributes, the whitespace before the end -/
structure Tag where
  leading : String
  name : String
  attributes : List Attribute
  beforeEnd : String
deriving Repr

/-- an end tag: the whitespace before it, the name as written there, the whitespace behind the name -/
structure EndTag where
  leading : String
  name : String
  inside : String
deriving DecidableEq, Repr

/-- how a tag without content ends: `/>`, or `>` where the element never has content -/
inductive Closing where
  | slash
  | void
deriving DecidableEq, Repr

/-- elements that have neither content nor an end tag -/
def voidElements : List String :=
  ["area", "base", "br", "col", "embed", "hr", "img", "input", "link", "meta", "param", "source", "track", "wbr"]

/-- the name, in ASCII letters of any case, of an element that has neither content nor an end tag -/
def isVoidElement (name : String) : Bool :=
  voidElements.contains (Text.asciiLower name)

/-! ## Segments -/

mutual

/-- a unit of a template -/
inductive Segment where
  /-- markup text as it stands -/
  | text (text : String)
  | element (tag : Tag) (children : List Segment) (close : EndTag)
  | emptyElement (tag : Tag) (closing : Closing)
  /-- `<!-- text -->` -/
  | htmlComment (leading text : String)
  /-- `<!declaration>` -/
  | docType (leading declaration : String)
  | inline (inline : InlineExpression)
  /-- `@{ body }` -/
  | block (body : List Segment)
  | declaration (declaration : Declaration)
  | branch (test : Expression) (body : List Segment) (otherwise : Alternative)
  | loop (counter : Declaration) (condition iteration : Expression) (body : List Segment)
  | each (item : String) (collection : Expression) (body : List Segment)
  /-- an expression statement -/
  | action (expression : Expression)
  | helper (name : String) (parameters : List String) (body : List Segment)
  | namedSection (name : String) (body : List Segment)
  /-- `@* text *@` -/
  | comment (text : String)

/-- what follows the body of an `if` -/
inductive Alternative where
  | nothing
  | elseBranch (test : Expression) (body : List Segment) (otherwise : Alternative)
  | elseBody (body : List Segment)
  /-- a further `if` with what follows it, and a last body beside it -/
  | both (test : Expression) (body : List Segment) (otherwise : Alternative) (elseBody : List Segment)

end

/-- the name of a segment's kind -/
def Segment.kind : Segment → String
  | .text _ => "Literal"
  | .element .. => "Html"
  | .emptyElement .. => "Html"
  | .htmlComment .. => "HtmlComment"
  | .docType .. => "HtmlDocType"
  | .inline _ => "InlineExpression"
  | .block _ => "Block"
  | .declaration _ => "Statement"
  | .branch .. => "Statement"
  | .loop .. => "Statement"
  | .each .. => "Statement"
  | .action _ => "Expression"
  | .helper .. => "Helper"
  | .namedSection .. => "Section"
  | .comment _ => "Comment"

/-- a parsed template -/
structure Template where
  segments : List Segment

end TemplateView
