/-
The meaning of a template, given by a walk of its tree. Nothing is compiled: text is written as it was captured,
expressions are evaluated as they stand, and a bare name is looked up when it is met, among the variables that are there
at that moment and then in the model. A block and the content of an element share the scope around them; every other body
has a scope of its own. Helpers and sections are walked apart, in one scope that holds their parameters.

A tree holds its operators as texts. The walk looks for the operator that is written so, and what it writes it takes from
the tree and the syntax of markup.
-/
import TemplateView.Proofs.Grammar.Spelled
import TemplateView.Proofs.Run.Alike
import TemplateView.Proofs.View.Hosts

namespace TemplateView

open Execution Generation

/-! ## Operators -/

def UnaryOperator.all : List UnaryOperator := [.not, .negate, .new]

def Step.all : List Step := [.increment, .decrement]

def BinaryOperator.all : List BinaryOperator :=
  [.or, .and, .equal, .notEqual, .strictEqual, .strictNotEqual, .less, .greater, .lessEqual, .greaterEqual, .add,
    .subtract, .multiply, .divide, .remainder]

/-- the operator that is written so, if there is one -/
def written? {α : Type} (operators : List α) (text : α → String) (operator : String) : Option α :=
  operators.find? (text · = operator)

/-- what an assignment combines the old value of the variable with, which is nothing if it is written with `=` alone -/
def assigning? (operator : String) : Option (Option BinaryOperator) :=
  if operator = "=" then some none else (written? BinaryOperator.all (·.text ++ "=") operator).map some

/-- an operator between two values, the right one taken only if the left one does not decide -/
def BinaryOperator.between (op : BinaryOperator) (left right : Execution Value) : Execution Value := do
  let v ← left
  if op.stopsAt v then return v
  else
    let w ← right
    ofResult (Value.binary op v w)

/-- gives a variable a value, which is the value of the assignment too -/
def Execution.setTo (name : String) (value : Execution Value) : Execution Value := do
  let v ← value
  assign name v
  return v

/-- what has no meaning; no template that can be compiled holds such an expression -/
def Execution.meaningless {α : Type} : Execution α := fail (.type "no meaning")

/-- counts the variable beside an operator up or down -/
def Expression.counted (operand : Expression) (operator : String) (fixity : Fixity) : Execution Value :=
  match operand, written? Step.all Step.text operator with
  | .name x _, some step => Execution.update x step fixity
  | _, _ => meaningless

/-- gives the variable on the left of an operator the value on the right, combined with its old one perhaps -/
def Expression.assigned (left : Expression) (operator : String) (right : Execution Value) : Execution Value :=
  match left, assigning? operator with
  | .name x _, some none => setTo x right
  | .name x _, some (some op) => setTo x (op.between (lookup x) right)
  | _, _ => meaningless

/-! ## Expressions -/

/-- the innermost variable of a name if there is one, or else the property of the model under the cased name -/
def Execution.named (casing : Casing) (env : Surroundings) (name : String) : Execution Value := do
  match (← get).scopes.lookup? name with
  | some v => return v
  | none => return if casing.apply name = "model" then env.model else env.model.property (casing.apply name)

mutual

/-- the value of an expression -/
def Expression.value (casing : Casing) (env : Surroundings) : Expression → Execution Value
  | .name x _ => named casing env x
  | .member object property _ => do
    let v ← object.value casing env
    ofResult (v.member (casing.apply property))
  | .literal raw =>
    match literalValue? raw with
    | some v => return v
    | none => meaningless
  | .call callee arguments =>
    match callee with
    | .name helper _ => do
      let vs ← Expression.values casing env arguments
      StateT.lift (env.call helper vs)
    | .member object method _ => do
      let v ← object.value casing env
      let vs ← Expression.values casing env arguments
      ofResult (v.callMethod (casing.apply method) vs)
    | _ => meaningless
  | .index target key => do
    let v ← target.value casing env
    let k ← key.value casing env
    ofResult (v.index k)
  | .array items => do return .array (← Expression.values casing env items)
  | .unary operator fixity operand =>
    match written? UnaryOperator.all UnaryOperator.text operator with
    | some op => do
      let v ← operand.value casing env
      ofResult (op.apply v)
    | none => operand.counted operator fixity
  | .binary left operator right =>
    match written? BinaryOperator.all BinaryOperator.text operator with
    | some op => op.between (left.value casing env) (right.value casing env)
    | none => left.assigned operator (right.value casing env)
  | .conditional test whenTrue whenFalse => do
    let v ← test.value casing env
    if v.isTruthy then whenTrue.value casing env else whenFalse.value casing env

def Expression.values (casing : Casing) (env : Surroundings) : List Expression → Execution (List Value)
  | [] => return []
  | e :: es => do
    let v ← e.value casing env
    return v :: (← Expression.values casing env es)

end

/-- the value of an initializer, null where there is none -/
def Declaration.value (casing : Casing) (env : Surroundings) (d : Declaration) : Execution Value :=
  match d.init with
  | none => return .null
  | some e => e.value casing env

/-! ## Tags -/

/-- the text of a piece of an attribute value; what does not count as true has none -/
def ValuePart.shown (casing : Casing) (env : Surroundings) : ValuePart → Execution String
  | .text s => return Text.trim s
  | .inline i => do
    let v ← i.expression.value casing env
    return if v.isTruthy then v.escaped else ""

/-- the texts of pieces, empty ones left out -/
def ValuePart.allShown (casing : Casing) (env : Surroundings) : List ValuePart → Execution (List String)
  | [] => return []
  | p :: ps => do
    let s ← p.shown casing env
    let rest ← ValuePart.allShown casing env ps
    return if s.isEmpty then rest else s :: rest

/-- an attribute with an expression is written with its pieces between spaces, or not at all if no piece has text -/
def Attribute.walk (casing : Casing) (env : Surroundings) (a : Attribute) : Execution Unit :=
  match a.quote with
  | none => write (a.leading ++ a.name)
  | some quote =>
    let quoted := fun value =>
      a.leading ++ a.name ++ a.separator ++ String.singleton quote ++ value ++ String.singleton quote
    if a.values.any ValuePart.isInline then do
      let shown ← ValuePart.allShown casing env a.values
      write (if shown.isEmpty then "" else quoted (Text.join " " shown))
    else write (quoted (String.join (a.values.map ValuePart.standing)))

def Tag.walk (casing : Casing) (env : Surroundings) (tag : Tag) : Execution Unit := do
  write (tag.leading ++ "<" ++ tag.name)
  tag.attributes.forM (Attribute.walk casing env)
  write tag.beforeEnd

/-! ## Segments -/

mutual

/-- the effect of a segment -/
def Segment.walk (casing : Casing) (env : Surroundings) : Segment → Execution Unit
  | .text s => write s
  | .element tag children close => do
    tag.walk casing env
    write ">"
    Segment.walkAll casing env children
    write (close.leading ++ "</" ++ close.name ++ close.inside ++ ">")
  | .emptyElement tag .slash => do
    tag.walk casing env
    write "/>"
  | .emptyElement tag .void => do
    tag.walk casing env
    write ">"
  | .htmlComment leading s => write (leading ++ "<!--" ++ s ++ "-->")
  | .docType leading declaration => write (leading ++ "<!" ++ declaration ++ ">")
  | .inline i => do
    write i.leading
    let v ← i.expression.value casing env
    write v.escaped
  | .block body => Segment.walkAll casing env body
  | .declaration d => do
    let v ← d.value casing env
    changeScopes (·.declare d.name v)
  | .branch test body otherwise => do
    let v ← test.value casing env
    if v.isTruthy then inScope (Segment.walkAll casing env body) else otherwise.walk casing env
  | .loop counter condition iteration body =>
    inScope do
      let v ← counter.value casing env
      changeScopes (·.declare counter.name v)
      repeatWhile (do return (← condition.value casing env).isTruthy) (do
        inScope (Segment.walkAll casing env body)
        let _ ← iteration.value casing env) env.steps
  | .each item collection body => do
    let v ← collection.value casing env
    let items ← ofResult v.iterate
    items.forM fun v => inScope do
      changeScopes (·.declare item v)
      Segment.walkAll casing env body
  | .action e => do
    let _ ← e.value casing env
  | .helper .. => return ()
  | .namedSection .. => return ()
  | .comment _ => return ()

def Segment.walkAll (casing : Casing) (env : Surroundings) : List Segment → Execution Unit
  | [] => return ()
  | s :: ss => do
    s.walk casing env
    Segment.walkAll casing env ss

/-- the effect of what follows the body of an `if`; a further `if` is looked at in the same scope, and a body beside it
never runs -/
def Alternative.walk (casing : Casing) (env : Surroundings) : Alternative → Execution Unit
  | .nothing => return ()
  | .elseBranch test body otherwise | .both test body otherwise _ => do
    let v ← test.value casing env
    if v.isTruthy then inScope (Segment.walkAll casing env body) else otherwise.walk casing env
  | .elseBody body => inScope (Segment.walkAll casing env body)

end

/-! ## Templates -/

/-- the markup of a declared body for some arguments; missing ones are null, more are passed over -/
def Generation.Declared.walk (casing : Casing) (env : Surroundings) (d : Declared) (arguments : List Value) :
    Except Halt String :=
  html (Table.ofList (d.parameters.zip (arguments ++ List.replicate d.parameters.length .null)))
    (Segment.walkAll casing env d.body)

namespace Template

variable (t : Template) (options : Options) (hosts : List (String × Host))

/-- a call by name: of a builtin, or a helper of the host, or one that the template declares -/
def call (context : Context) (invoke : Declared → List Value → Except Halt Value) (name : String)
    (arguments : List Value) : Except Halt Value :=
  match builtin? context name arguments with
  | some result => Halt.ofError result
  | none =>
    match (Table.ofList hosts).get? name with
    | some f => Halt.ofError (f arguments)
    | none =>
      match t.helper? name with
      | some d => invoke d arguments
      | none => .error (.error (.unknownHelper name))

/-- the markup of a declared body when calls may nest `left` levels deeper -/
def invoke (o : Occasion) : Nat → Declared → List Value → Except Halt Value
  | 0, d, _ => .error (.error (.recursionLimit d.name options.maxCallDepth))
  | left + 1, d, arguments => do
    return .raw (← d.walk options.casing ⟨o.model, t.call hosts o.context (invoke o left), o.steps⟩ arguments)

/-- what the outermost walk sees -/
def surroundings (o : Occasion) : Surroundings :=
  ⟨o.model, t.call hosts o.context (t.invoke options hosts o options.maxCallDepth), o.steps⟩

/-- the markup of a model, in a context -/
def render (steps : Nat) (model : Json) (context : Context) : Except Halt String :=
  html [] (Segment.walkAll options.casing (t.surroundings options hosts ⟨.ofJson model, context, steps⟩) t.segments)

/-- the markup of a section, nothing if there is none of that name -/
def renderSection (steps : Nat) (model : Json) (name : String) : Except Halt String :=
  match t.section? name with
  | none => .ok ""
  | some d => do return (← t.invoke options hosts (.ofModel steps model) options.maxCallDepth d []).text

/-- the value of a builtin or a helper for some arguments -/
def callHelper (steps : Nat) (model : Json) (name : String) (arguments : List Value) : Except Halt Value :=
  (t.surroundings options hosts (.ofModel steps model)).call name arguments

end Template

end TemplateView
