/-
Visits of a template. A visit is the list of its events in order: every segment is entered and left, and between the
two its parts are visited, unless the visitor passes over them; every expression is reported before the expressions
inside it. What an analysis collects is a fold over these events.
-/
import TemplateView.Template

namespace TemplateView

/-- what happens on a visit -/
inductive Event where
  | enter (segment : Segment)
  | exit (segment : Segment)
  | expression (e : Expression)

namespace Event

mutual

/-- an expression and those inside it, outermost first -/
def ofExpression (e : Expression) : List Event :=
  .expression e ::
    match e with
    | .name .. => []
    | .member object _ _ => ofExpression object
    | .literal _ => []
    | .call callee arguments => ofExpression callee ++ ofExpressions arguments
    | .index target key => ofExpression target ++ ofExpression key
    | .array items => ofExpressions items
    | .unary _ _ operand => ofExpression operand
    | .binary left _ right => ofExpression left ++ ofExpression right
    | .conditional test whenTrue whenFalse => ofExpression test ++ ofExpression whenTrue ++ ofExpression whenFalse

def ofExpressions : List Expression → List Event
  | [] => []
  | e :: es => ofExpression e ++ ofExpressions es

end

def ofOption : Option Expression → List Event
  | none => []
  | some e => ofExpression e

/-- the expressions in the attributes of a tag -/
def ofTag (tag : Tag) : List Event :=
  tag.attributes.flatMap fun a =>
    a.values.flatMap fun
      | .text _ => []
      | .inline i => ofExpression i.expression

mutual

/-- a segment with its parts, which are passed over if the visitor does not descend -/
def ofSegment (descend : Segment → Bool) (s : Segment) : List Event :=
  .enter s ::
    ((if descend s then
      match s with
      | .text _ => []
      | .element tag children _ => ofTag tag ++ ofSegments descend children
      | .emptyElement tag _ => ofTag tag
      | .htmlComment .. => []
      | .docType .. => []
      | .inline i => ofExpression i.expression
      | .block body => ofSegments descend body
      | .declaration d => ofOption d.init
      | .branch test body otherwise => ofExpression test ++ ofSegments descend body ++ ofAlternative descend otherwise
      | .loop counter condition iteration body =>
        ofOption counter.init ++ ofExpression condition ++ ofExpression iteration ++ ofSegments descend body
      | .each _ collection body => ofExpression collection ++ ofSegments descend body
      | .action e => ofExpression e
      | .helper _ _ body => ofSegments descend body
      | .namedSection _ body => ofSegments descend body
      | .comment _ => []
    else []) ++ [.exit s])

def ofSegments (descend : Segment → Bool) : List Segment → List Event
  | [] => []
  | s :: ss => ofSegment descend s ++ ofSegments descend ss

def ofAlternative (descend : Segment → Bool) : Alternative → List Event
  | .nothing => []
  | .elseBranch test body otherwise =>
    ofExpression test ++ ofSegments descend body ++ ofAlternative descend otherwise
  | .elseBody body => ofSegments descend body
  | .both test body otherwise elseBody =>
    ofExpression test ++ ofSegments descend body ++ ofAlternative descend otherwise ++ ofSegments descend elseBody

end

/-! ## Text -/

/-- an expression by its kind, with its name, operator or number of parts -/
def expressionText : Expression → String
  | .name name _ => "VariableAccess " ++ name
  | .member _ name _ => "VariableAccess " ++ name
  | .literal raw => "Literal " ++ raw
  | .call _ arguments => "MethodCall " ++ toString arguments.length
  | .index .. => "ArrayAccess"
  | .array items => "ArrayLiteral " ++ toString items.length
  | .unary op _ _ => "Unary " ++ op
  | .binary _ op _ => "Binary " ++ op
  | .conditional .. => "Ternary"

/-- an event on one line -/
def text : Event → String
  | enter s => "enter " ++ s.kind
  | exit s => "exit " ++ s.kind
  | expression e => "expression " ++ expressionText e

end Event

/-- the events of a visit -/
def Template.visit (descend : Segment → Bool) (t : Template) : List Event :=
  Event.ofSegments descend t.segments

end TemplateView
