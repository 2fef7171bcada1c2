/-
The grammar of segments. In markup a segment is a tag with its content, a run of text, or what an `@` opens; in code it
is a statement or again markup. Both kinds of place refer to each other and to themselves, always behind a token that
is used up: `segmentOver` is one unfolding, `segment` the whole.

`Template.parse` reads a source as segments in markup up to its end.
-/
import TemplateView.Grammar.Expression

namespace TemplateView.Grammar

open TemplateView.Parser

/-- where a segment stands -/
inductive Place where
  | markup
  | code
deriving DecidableEq, Repr

/-! ## What is next -/

/-- markup opens with `<` and directly behind it a name or `!` -/
def startsMarkup : Parser Bool := do
  let offset := if (← peek .kept).isWhitespace then 1 else 0
  let mark ← peekNth offset
  let after ← peekNth (offset + 1)
  return mark.is "<" && (after.isAlphanumeric || after.is "!")

/-- the words that open a declaration or a control structure behind `@` -/
def directives : List String := ["helper", "section", "if", "for", "foreach"]

/-- the token opens code when it stands behind `@` -/
def opensCode (t : Token) : Bool :=
  t.is "\x7b" || t.is "*" || (t.isAlphanumeric && directives.contains t.text)

/-- an `@` between two words belongs to an address: the text before it ends in a letter or number, a word follows -/
def isAddressAt (text : String) : Parser Bool := do
  let after ← peekNext .kept
  return (text.toList.getLast?.map Text.isAlphanumeric).getD false && after.isAlphanumeric

/-! ## Text and comments -/

/-- the tokens at which a run of markup text ends -/
def textStops : List String := ["<", "/", ">", "\"", "'", "=", "@"]

/-- one more token of markup text, if it does not end here -/
def textRound (text : String) : Parser (String ⊕ String) := do
  let t ← peek .kept
  let address ← isAddressAt text
  if t.isEnd then
    return .inr text
  else if t.isDelimiter && address then
    return .inl (text ++ (← consume .kept).text)
  else if t.isOneOf textStops then
    return .inr text
  else
    return .inl (text ++ (← consume .kept).text)

/-- a run of markup text; its first token is taken whatever it is -/
def textRun : Parser String := do
  iterate (← consume .kept).text textRound

/-- one more token of an HTML comment, whose text so far stands in reverse -/
def htmlCommentRound (start : Position) (reversed : List Char) : Parser (List Char ⊕ String) := do
  if ← atEnd then
    fail (.unclosedHtmlComment start)
  else
    match (← consume .kept).text.toList.reverse ++ reversed with
    | '>' :: '-' :: '-' :: body => return .inr (String.ofList body.reverse)
    | reversed => return .inl reversed

/-- the text of an HTML comment up to `-->`; its opening is consumed up to `<!` -/
def htmlComment (start : Position) : Parser String := do
  let _ ← expect .kept "--"
  iterate [] (htmlCommentRound start)

/-- one more token of a declaration, or the `>` at its end -/
def docTypeRound (start : Position) (text : String) : Parser (String ⊕ String) := do
  let ended ← atEnd
  if (← peek .kept).is ">" then
    let _ ← expect .kept ">"
    return .inr text
  else if ended then
    fail (.unclosedDeclaration start)
  else
    return .inl (text ++ (← consume .kept).text)

/-- the text of a declaration up to `>`; its opening is consumed up to `<!` -/
def docType (start : Position) : Parser String :=
  iterate "" (docTypeRound start)

/-- one more token of a template comment, or the `*@` at its end -/
def templateCommentRound (start : Position) (text : String) : Parser (String ⊕ String) := do
  let t ← peek .kept
  let after ← peekNext .kept
  if t.isEnd then
    fail (.unclosedComment start)
  else if t.is "*" && after.isDelimiter then
    let _ ← consume .kept
    let _ ← consume .kept
    return .inr text
  else
    return .inl (text ++ (← consume .kept).text)

/-- the text of a template comment up to `*@`; its `@` is consumed -/
def templateComment (start : Position) : Parser String := do
  let _ ← expect .kept "*"
  iterate "" (templateCommentRound start)

/-! ## Statements -/

/-- the operators that assign to a variable -/
def assignmentOperators : List String := ["=", "+=", "-=", "*=", "/=", "%="]

/-- an expression statement: an expression, and behind it perhaps an assignment to it -/
def action : Parser Expression := do
  let target ← expression
  match binaryOperator? assignmentOperators (← peek .skipped) with
  | some operator =>
    let _ ← consume .skipped
    return .binary target operator (← expression)
  | none => return target

/-- `var name = init` -/
def declaration : Parser Declaration := do
  let _ ← expect .skipped "var"
  let name ← word .skipped
  if (← peek .skipped).is "=" then
    let _ ← consume .skipped
    return ⟨name, some (← expression)⟩
  else
    return ⟨name, none⟩

/-- one more statement, or the brace at the end of a block -/
def blockRound (segment : Place → Parser Segment) (start : Position) (body : List Segment) :
    Parser (List Segment ⊕ List Segment) := do
  let next ← peek .skipped
  if next.is "\x7d" then
    let _ ← expect .skipped "\x7d"
    return .inr body
  else if next.isEnd then
    fail (.unclosedBlock start)
  else
    return .inl (body ++ [← segment .code])

/-- statements in braces -/
def block (segment : Place → Parser Segment) : Parser (List Segment) := do
  let brace ← expect .skipped "\x7b"
  iterate [] (blockRound segment brace.position)

/-- `if (test) body` -/
def branchHead (segment : Place → Parser Segment) : Parser (Expression × List Segment) := do
  let _ ← expect .skipped "if"
  let _ ← expect .skipped "("
  let test ← expression
  let _ ← expect .skipped ")"
  return (test, ← block segment)

/-- one more `else if`, or what ends a chain of them, given what was read between it and the first one -/
def alternativeRound (segment : Place → Parser Segment) (wrap : Alternative → Alternative) :
    Parser ((Alternative → Alternative) ⊕ Alternative) := do
  if (← peek .skipped).is "else" then
    let _ ← consume .skipped
    if (← peek .skipped).is "if" then
      let (test, body) ← branchHead segment
      return .inl (wrap ∘ .elseBranch test body)
    else
      return .inr (wrap (.elseBody (← block segment)))
  else
    return .inr (wrap .nothing)

/-- what may follow the body of an `if` -/
def alternative (segment : Place → Parser Segment) : Parser Alternative :=
  iterate id (alternativeRound segment)

/-- `for (var i = 0; condition; iteration) body` -/
def loopStatement (segment : Place → Parser Segment) : Parser Segment := do
  let _ ← expect .skipped "for"
  let _ ← expect .skipped "("
  let next ← peek .skipped
  if !next.is "var" then
    fail (.undeclaredCounter next)
  let counter ← declaration
  let _ ← expect .skipped ";"
  let condition ← expression
  let _ ← expect .skipped ";"
  let iteration ← action
  let _ ← expect .skipped ")"
  return .loop counter condition iteration (← block segment)

/-- `foreach (var item in collection) body` -/
def eachStatement (segment : Place → Parser Segment) : Parser Segment := do
  let _ ← expect .skipped "foreach"
  let _ ← expect .skipped "("
  let _ ← expect .skipped "var"
  let item ← word .skipped
  let _ ← expect .skipped "in"
  let start := (← peek .skipped).position
  let collection ← expression
  if !collection.isAccess then
    fail (.computedCollection start)
  let _ ← expect .skipped ")"
  return .each item collection (← block segment)

/-- the control structure that the next word opens -/
def control (segment : Place → Parser Segment) : Parser Segment := do
  let next ← peek .skipped
  if next.text == "if" then
    let (test, body) ← branchHead segment
    return .branch test body (← alternative segment)
  else if next.text == "for" then
    loopStatement segment
  else
    eachStatement segment

/-- one more parameter and the comma that may stand behind it -/
def parameterRound (names : List String) : Parser (List String ⊕ List String) := do
  let names := names ++ [← word .skipped]
  if (← peek .skipped).is "," then
    let _ ← consume .skipped
    return .inl names
  else
    return .inr names

/-- the parameters of a helper, without the parentheses -/
def parameters : Parser (List String) := do
  if (← peek .skipped).is ")" then
    return []
  else
    iterate [] parameterRound

/-- `helper name(parameters) body` -/
def helper (segment : Place → Parser Segment) : Parser Segment := do
  let _ ← expect .skipped "helper"
  let name ← word .skipped
  let _ ← expect .skipped "("
  let names ← parameters
  let _ ← expect .skipped ")"
  return .helper name names (← block segment)

/-- `section name body` -/
def namedSection (segment : Place → Parser Segment) : Parser Segment := do
  let _ ← expect .skipped "section"
  let name ← word .skipped
  return .namedSection name (← block segment)

/-! ## What an `@` opens -/

/-- an inline expression in parentheses; its `@` is consumed -/
def parenthesized : Parser Expression := do
  let _ ← consume .kept
  let e ← expression
  let _ ← expect .skipped ")"
  return e

/-- an inline expression that is a name with its suffixes; its `@` is consumed -/
def inlineChain : Parser Expression := do
  let name ← consume .kept
  chain expression .kept (nameOrLiteral name)

/-- the construct behind an `@`, given the whitespace before that -/
def construct (segment : Place → Parser Segment) (leading : String) (mark : Token) : Parser Segment := do
  let next ← peek .kept
  if next.isDelimiter then
    let _ ← consume .kept
    return .text (leading ++ "@")
  else if next.is "*" then
    return .comment (← templateComment mark.position)
  else if next.is "(" then
    return .inline ⟨← parenthesized, leading⟩
  else if next.is "\x7b" then
    return .block (← block segment)
  else if next.isAlphanumeric then
    if next.text == "helper" then
      helper segment
    else if next.text == "section" then
      namedSection segment
    else if next.text == "if" || next.text == "for" || next.text == "foreach" then
      control segment
    else
      return .inline ⟨← inlineChain, leading⟩
  else
    fail (.unknownDirective next)

/-- an `@` and the construct behind it, the whitespace before it included -/
def embedded (segment : Place → Parser Segment) : Parser Segment := do
  let leading ← blank
  let mark ← expectCategory .kept .delimiter
  construct segment leading mark

/-! ## Tags -/

/-- one more part of a name, if there is one -/
def nameRound (name : String) : Parser (String ⊕ String) := do
  let joiner ← peek .kept
  let next ← peekNext .kept
  if (joiner.is "-" || joiner.is ":") && (next.isAlphanumeric || next.category == .numeric) then
    let joiner ← consume .kept
    let next ← consume .kept
    return .inl (name ++ joiner.text ++ next.text)
  else
    return .inr name

/-- a tag or attribute name: words joined by `-` or `:` -/
def tagName : Parser String := do
  iterate (← word .kept) nameRound

/-- text gathered so far becomes a part of its own, unless there is none -/
def withText (parts : List ValuePart) (text : String) : List ValuePart :=
  if text.isEmpty then parts else parts ++ [.text text]

/-- an inline expression is next: its `@`, or the whitespace before it -/
def startsInline (t : Token) (text : String) : Parser Bool := do
  if t.isDelimiter then
    return !(← isAddressAt text)
  else
    return t.isWhitespace && (← peekNext .kept).isDelimiter

/-- one more token or expression of an attribute value, given the parts so far and the text behind them, and what an `@`
opens there -/
def valueRound (embedded : Parser Segment) (quote : Token) (parts : List ValuePart) (text : String) :
    Parser ((List ValuePart × String) ⊕ List ValuePart) := do
  let t ← peek .kept
  let inline ← startsInline t text
  if t.is quote.text then
    return .inr (withText parts text)
  else if t.isEnd then
    fail (.unclosedAttribute quote.text quote.position)
  else if inline then
    match ← embedded with
    | .inline inline => return .inl (withText parts text ++ [.inline inline], "")
    | .text more => return .inl (withText parts text, more)
    | .comment _ => return .inl (withText parts text, "")
    | _ => fail (.codeInAttribute t.position)
  else
    return .inl (parts, text ++ (← consume .kept).text)

/-- the parts of an attribute value up to the closing quote -/
def valueParts (embedded : Parser Segment) (quote : Token) : Parser (List ValuePart) :=
  iterate ([], "") fun p => valueRound embedded quote p.1 p.2

/-- an attribute with the whitespace before it -/
def oneAttribute (embedded : Parser Segment) : Parser Attribute := do
  let leading ← expectCategory .kept .whitespace
  let name ← tagName
  if !(← peek .skipped).is "=" then
    return ⟨leading.text, name, "", none, []⟩
  let before ← blank
  let sign ← expect .kept "="
  let behind ← blank
  let quote ← expectOneOf .kept ["\"", "'"]
  let values ← valueParts embedded quote
  let _ ← expect .kept quote.text
  return ⟨leading.text, name, before ++ sign.text ++ behind, quote.text.toList.head?, values⟩

/-- one more attribute, if the tag does not end here -/
def attributeRound (embedded : Parser Segment) (tag : String) (start : Position) (attributes : List Attribute) :
    Parser (List Attribute ⊕ List Attribute) := do
  let next ← peek .skipped
  if next.is ">" || next.is "/" then
    return .inr attributes
  else if next.isEnd then
    fail (.unfinishedTag tag start)
  else
    return .inl (attributes ++ [← oneAttribute embedded])

/-- the attributes of a tag up to its end -/
def attributes (embedded : Parser Segment) (tag : String) (start : Position) : Parser (List Attribute) :=
  iterate [] (attributeRound embedded tag start)

/-- one more segment of an element, if no end tag is next -/
def childRound (segment : Parser Segment) (tag : String) (start : Position) (children : List Segment) :
    Parser (List Segment ⊕ List Segment) := do
  let mark ← peek .skipped
  let after ← peekNext .skipped
  if ← atEnd then
    fail (.unclosedElement tag start)
  else if mark.is "<" && after.is "/" then
    return .inr children
  else
    return .inl (children ++ [← segment])

/-- the content of an element up to an end tag -/
def children (segment : Parser Segment) (tag : String) (start : Position) : Parser (List Segment) :=
  iterate [] (childRound segment tag start)

/-- the end tag of an element -/
def endTag (tag : String) (start : Position) : Parser EndTag := do
  let leading ← blank
  let close ← expect .kept "<"
  let _ ← expect .kept "/"
  let name ← tagName
  if !Text.equalIgnoringCase name tag then
    fail (.mismatchedCloseTag tag name start close.position)
  let inside ← blank
  let _ ← expect .kept ">"
  return ⟨leading, name, inside⟩

/-- an element, an HTML comment or a declaration, the whitespace before it included, given what an `@` opens in the value
of an attribute and what the segments inside an element are -/
def markup (embedded segment : Parser Segment) : Parser Segment := do
  let leading ← blank
  let mark ← expect .kept "<"
  if (← peek .kept).is "!" then
    let _ ← consume .kept
    if (← peek .kept).is "--" then
      return .htmlComment leading (← htmlComment mark.position)
    else
      return .docType leading (← docType mark.position)
  let name ← tagName
  let attributes ← attributes embedded name mark.position
  let tag : Tag := ⟨leading, name, attributes, ← blank⟩
  if (← peek .kept).is "/" then
    let _ ← expect .kept "/"
    let _ ← expect .kept ">"
    return .emptyElement tag .slash
  let _ ← expect .kept ">"
  if isVoidElement name then
    return .emptyElement tag .void
  let children ← children segment name mark.position
  return .element tag children (← endTag name mark.position)

/-! ## Segments -/

/-- a segment in markup, given what an `@` opens there; whitespace before code stays markup -/
def markupSegment (here inValue segment : Parser Segment) : Parser Segment := do
  if (← peek .skipped).isDelimiter then
    if (← peek .kept).isWhitespace && opensCode (← peekNth 2) then
      return .text (← blank)
    else
      here
  else if ← startsMarkup then
    markup inValue segment
  else
    return .text (← textRun)

/-- a segment in code -/
def codeSegment (segment : Place → Parser Segment) : Parser Segment := do
  if ← startsMarkup then
    markup (embedded segment) (segment .markup)
  else
    let next ← peek .skipped
    if next.isDelimiter then
      embedded segment
    else if next.isAlphanumeric && (next.text == "if" || next.text == "for" || next.text == "foreach") then
      control segment
    else if next.isAlphanumeric && next.text == "var" then
      let d ← declaration
      let _ ← expect .skipped ";"
      return .declaration d
    else
      let e ← action
      let _ ← expect .skipped ";"
      return .action e

/-- a segment, in terms of the segments inside it -/
def segmentOver (segment : Place → Parser Segment) : Place → Parser Segment
  | .markup => markupSegment (embedded segment) (embedded segment) (segment .markup)
  | .code => codeSegment segment

/-- a segment at a place -/
def segment (place : Place) : Parser Segment :=
  recursive segmentOver place

/-- one more segment, if the source does not end here -/
def documentRound (segment : Parser Segment) (segments : List Segment) : Parser (List Segment ⊕ List Segment) := do
  if ← atEnd then
    return .inr segments
  else
    return .inl (segments ++ [← segment])

/-- segments up to the end of the source -/
def document (segment : Parser Segment) : Parser (List Segment) :=
  iterate [] (documentRound segment)

end TemplateView.Grammar

namespace TemplateView

/-- the template that a source text writes in segments of some kind -/
def Template.parseAs (segment : Parser Segment) (source : String) : Except SourceError Template :=
  match Grammar.document segment (TokenStream.ofSource source) with
  | .ok (segments, _) => .ok ⟨segments⟩
  | .error e => .error e

/-- the template that a source text writes -/
def Template.parse (source : String) : Except SourceError Template :=
  Template.parseAs (Grammar.segment .markup) source

end TemplateView
