/-
Templates as documents. Every segment and every expression is an object with one member, named for its kind.
-/
import TemplateView.Json
import TemplateView.Template

namespace TemplateView

/-- an object with one member, named for a kind -/
def Json.tagged (kind : String) (j : Json) : Json :=
  .object [(kind, j)]

def Json.strings (texts : List String) : Json :=
  .array (texts.map .string)

def Position.toJson (p : Position) : Json :=
  .object [("index", .integer p.index), ("line", .integer p.line), ("column", .integer p.column)]

def Fixity.toJson : Fixity → Json
  | .before => .string "Prefix"
  | .after => .string "Postfix"

/-! ## Expressions -/

namespace Expression

/-- a bare name, or a member if there is an object -/
def accessJson (name : String) (object : Json) (p : Position) : Json :=
  .tagged "VariableAccess" (.object [("name", .string name), ("object", object), ("position", p.toJson)])

mutual

def toJson : Expression → Json
  | .name n p => accessJson n .null p
  | .member object n p => accessJson n object.toJson p
  | .literal raw => .tagged "Literal" (.object [("raw", .string raw)])
  | .call callee arguments =>
    .tagged "MethodCall" (.object [("callee", callee.toJson), ("arguments", .array (toJsons arguments))])
  | .index target key => .tagged "ArrayAccess" (.object [("target", target.toJson), ("index", key.toJson)])
  | .array items => .tagged "ArrayLiteral" (.array (toJsons items))
  | .unary op fixity operand =>
    .tagged "Unary" (.object [("operator", .string op), ("operand", operand.toJson), ("fixity", fixity.toJson)])
  | .binary left op right =>
    .tagged "Binary" (.object [("left", left.toJson), ("operator", .string op), ("right", right.toJson)])
  | .conditional test whenTrue whenFalse =>
    .tagged "Ternary"
      (.object [("test", test.toJson), ("when_true", whenTrue.toJson), ("when_false", whenFalse.toJson)])

def toJsons : List Expression → List Json
  | [] => []
  | e :: es => e.toJson :: toJsons es

end

end Expression

def Declaration.toJson (d : Declaration) : Json :=
  .object [("name", .string d.name), ("initializer", (d.init.map Expression.toJson).getD .null)]

def InlineExpression.toJson (i : InlineExpression) : Json :=
  .object [("expression", i.expression.toJson), ("leading_whitespace", .string i.leading)]

/-! ## Tags -/

def ValuePart.toJson : ValuePart → Json
  | .text s => .tagged "Literal" (.object [("text", .string s)])
  | .inline i => .tagged "Expression" i.toJson

def Attribute.toJson (a : Attribute) : Json :=
  .object [("name", .string a.name), ("leading_whitespace", .string a.leading), ("separator", .string a.separator),
    ("quote", (a.quote.map fun c => Json.string (String.singleton c)).getD .null),
    ("values", .array (a.values.map ValuePart.toJson))]

def Closing.toJson : Closing → Json
  | .slash => .string "SelfClosing"
  | .void => .string "Void"

/-- a tag with the way its element ends -/
def Tag.toJson (tag : Tag) (finish : Json) : Json :=
  .tagged "Html"
    (.object [("tag_name", .string tag.name), ("leading_whitespace", .string tag.leading),
      ("attributes", .array (tag.attributes.map Attribute.toJson)), ("whitespace_before_end", .string tag.beforeEnd),
      ("end", finish)])

/-! ## Segments -/

namespace Segment

/-- a list of segments that stands between braces -/
def bodyJson (segments : List Json) : Json :=
  .object [("statements", .array segments)]

/-- an `if` with what follows its body -/
def branchJson (test : Json) (body : List Json) (otherwise : List (String × Json)) : Json :=
  .object ([("test", test), ("body", bodyJson body)] ++ otherwise)

mutual

def toJson : Segment → Json
  | .text s => .tagged "Literal" (.object [("text", .string s)])
  | .element tag children close =>
    tag.toJson (.tagged "Closed"
      (.object [("children", .array (toJsons children)), ("whitespace_before_close", .string close.leading),
        ("closing_name", .string close.name), ("whitespace_in_close", .string close.inside)]))
  | .emptyElement tag closing => tag.toJson closing.toJson
  | .htmlComment leading s =>
    .tagged "HtmlComment" (.object [("leading_whitespace", .string leading), ("text", .string s)])
  | .docType leading s =>
    .tagged "HtmlDocType" (.object [("leading_whitespace", .string leading), ("declaration", .string s)])
  | .inline i => .tagged "InlineExpression" i.toJson
  | .block body => .tagged "Block" (bodyJson (toJsons body))
  | .declaration d => .tagged "Statement" (.tagged "VariableDeclaration" d.toJson)
  | .branch test body otherwise =>
    .tagged "Statement" (.tagged "If" (branchJson test.toJson (toJsons body) (alternativeJson otherwise)))
  | .loop counter condition iteration body =>
    .tagged "Statement" (.tagged "For"
      (.object [("initialization", counter.toJson), ("condition", condition.toJson), ("iteration", iteration.toJson),
        ("body", bodyJson (toJsons body))]))
  | .each item collection body =>
    .tagged "Statement" (.tagged "ForEach"
      (.object [("loop_variable", .string item), ("collection", collection.toJson), ("body", bodyJson (toJsons body))]))
  | .action e => .tagged "Expression" e.toJson
  | .helper name parameters body =>
    .tagged "Helper"
      (.object [("name", .string name), ("parameters", .strings parameters), ("body", bodyJson (toJsons body))])
  | .namedSection name body => .tagged "Section" (.object [("name", .string name), ("body", bodyJson (toJsons body))])
  | .comment s => .tagged "Comment" (.object [("text", .string s)])

def toJsons : List Segment → List Json
  | [] => []
  | s :: ss => s.toJson :: toJsons ss

/-- the members of an `if` for what follows its body -/
def alternativeJson : Alternative → List (String × Json)
  | .nothing => [("else_if", .null), ("else_body", .null)]
  | .elseBranch test body otherwise =>
    [("else_if", branchJson test.toJson (toJsons body) (alternativeJson otherwise)), ("else_body", .null)]
  | .elseBody body => [("else_if", .null), ("else_body", bodyJson (toJsons body))]
  | .both test body otherwise elseBody =>
    [("else_if", branchJson test.toJson (toJsons body) (alternativeJson otherwise)),
      ("else_body", bodyJson (toJsons elseBody))]

end

end Segment

def Template.toJson (t : Template) : Json :=
  .object [("segments", .array (Segment.toJsons t.segments))]

end TemplateView
