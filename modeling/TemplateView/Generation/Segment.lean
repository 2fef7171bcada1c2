/-
Programs of templates. Markup becomes text, inline expressions are written escaped, and statements become operations;
whitespace of the template stays where it was. Helpers and sections, at whatever depth they are declared, become entries
of two tables and leave no operation behind.

The builder's scopes hold the locals that are declared where a segment stands. Bodies of control structures have scopes
of their own, and so has a loop for its counter; a block and the content of an element share the scope around them.
-/
import TemplateView.Builder
import TemplateView.Inventory
import TemplateView.Generation.Expression

namespace TemplateView

/-- the programs of a template -/
structure Generated where
  program : Program
  helpers : Table Fragment
  sections : Table Fragment

namespace Generation

/-- what has been generated so far -/
structure Progress where
  builder : Builder
  helpers : Table Fragment
  sections : Table Fragment

def Progress.start : Progress := ⟨.empty, [], []⟩

/-- a step of generation; an error carries the program built so far -/
abbrev Generate := StateT Progress (Except GenerationError)

/-! ## Steps -/

/-- changes the builder -/
def build (f : Builder → Builder) : Generate Unit :=
  modify fun p => { p with builder := f p.builder }

/-- markup text where markup is written -/
def write (text : String) : Generate Unit := do
  let p ← get
  let builder ← p.builder.literal text
  set { p with builder }

/-- markup text, from anywhere -/
def markup (text : String) : Generate Unit := do
  build .startMarkup
  write text

/-- an expression, with the names that are declared at this point -/
def lower {α : Type} (casing : Casing) (f : Naming → Except GenerationCause α) : Generate α := do
  let b := (← get).builder
  match f ⟨casing, b.isDeclared⟩ with
  | .ok a => return a
  | .error cause => throw (b.error cause)

def lowerOption (casing : Casing) : Option Expression → Generate (Option Expr)
  | none => return none
  | some e => return some (← lower casing (·.expression e))

/-- the operations that a step generates as a body with a scope of its own, which may hold a variable from the start -/
def body (item : Option String) (step : Generate Unit) : Generate (List Op) := do
  build .openBody
  match item with
  | some name => build (·.declare name)
  | none => pure ()
  step
  build .startCode
  modifyGet fun p =>
    let (ops, builder) := p.builder.closeBody
    (ops, { p with builder })

/-- the program that a step generates apart from the one under construction -/
def fragment (parameters : List String) (step : Generate Unit) : Generate Fragment := do
  let outer := (← get).builder
  build fun _ => .withLocals parameters
  step
  let inner := (← get).builder
  build fun _ => outer
  return ⟨parameters, inner.finish⟩

/-! ## Tags -/

/-- a piece of an attribute value, as part of an attribute that is written only if it has text -/
def writePart (casing : Casing) : ValuePart → Generate Unit
  | .text text => build (·.push (.attributePart (.text (Text.trim text))))
  | .inline i => do
    let value ← lower casing (·.expression i.expression)
    build (·.push (.attributePart (.value value)))

/-- the text of a piece of an attribute value -/
def plainText : ValuePart → String
  | .text text => text
  | .inline _ => ""

/-- the attribute up to its value -/
def opening (a : Attribute) (quote : Char) : String :=
  a.leading ++ a.name ++ a.separator ++ String.singleton quote

def writeAttribute (casing : Casing) (a : Attribute) : Generate Unit :=
  match a.quote with
  | none => write (a.leading ++ a.name)
  | some quote =>
    if a.values.any ValuePart.isInline then do
      build (·.push (.beginAttribute (opening a quote)))
      a.values.forM (writePart casing)
      build (·.push (.endAttribute (String.singleton quote)))
    else write (opening a quote ++ String.join (a.values.map plainText) ++ String.singleton quote)

/-- a start tag up to its end -/
def startTag (casing : Casing) (tag : Tag) : Generate Unit := do
  markup (tag.leading ++ "<" ++ tag.name)
  tag.attributes.forM (writeAttribute casing)
  write tag.beforeEnd

def closingText : Closing → String
  | .slash => "/>"
  | .void => ">"

def endTagText (e : EndTag) : String :=
  e.leading ++ "</" ++ e.name ++ e.inside ++ ">"

/-! ## Segments -/

mutual

/-- the operations of a segment -/
def segment (casing : Casing) : Segment → Generate Unit
  | .text text => markup text
  | .element tag children close => do
    startTag casing tag
    write ">"
    segments casing children
    markup (endTagText close)
  | .emptyElement tag closing => do
    startTag casing tag
    write (closingText closing)
  | .htmlComment leading text => markup (leading ++ "<!--" ++ text ++ "-->")
  | .docType leading declaration => markup (leading ++ "<!" ++ declaration ++ ">")
  | .inline i => do
    markup i.leading
    let value ← lower casing (·.expression i.expression)
    build (·.push (.emit value))
  | .block ss => segments casing ss
  | .declaration d => do
    build .startCode
    let init ← lowerOption casing d.init
    build (·.declare d.name)
    build (·.push (.declare d.name init))
  | .branch test ss otherwise => do
    build .startCode
    let test ← lower casing (·.expression test)
    let whenTrue ← body none (segments casing ss)
    let whenFalse ← alternative casing otherwise
    build (·.push (.branch test whenTrue whenFalse))
  | .loop counter condition iteration ss => do
    build .startCode
    build .pushScope
    let init ← lowerOption casing counter.init
    build (·.declare counter.name)
    let condition ← lower casing (·.expression condition)
    let iteration ← lower casing (·.expression iteration)
    let ops ← body none (segments casing ss)
    build .popScope
    build (·.push (.loop counter.name init condition iteration ops))
  | .each item collection ss => do
    build .startCode
    let collection ← lower casing (·.expression collection)
    let ops ← body (some item) (segments casing ss)
    build (·.push (.each item collection ops))
  | .action e => do
    build .startCode
    let value ← lower casing (·.expression e)
    build (·.push (.eval value))
  | .helper name parameters ss => do
    let f ← fragment parameters (segments casing ss)
    modify fun p => { p with helpers := p.helpers.insert name f }
  | .namedSection name ss => do
    let f ← fragment [] (segments casing ss)
    modify fun p => { p with sections := p.sections.insert name f }
  | .comment _ => pure ()

def segments (casing : Casing) : List Segment → Generate Unit
  | [] => pure ()
  | s :: ss => do
    segment casing s
    segments casing ss

/-- the operations of what follows the body of an `if`; where a further `if` stands beside a last body, the body is
passed over -/
def alternative (casing : Casing) : Alternative → Generate (List Op)
  | .nothing => return []
  | .elseBranch test ss otherwise | .both test ss otherwise _ => do
    let test ← lower casing (·.expression test)
    let whenTrue ← body none (segments casing ss)
    let whenFalse ← alternative casing otherwise
    return [.branch test whenTrue whenFalse]
  | .elseBody ss => body none (segments casing ss)

end

end Generation

/-- the programs of a template; a helper or a section declared twice is refused before anything is generated -/
def Template.generate (casing : Casing) (t : Template) : Except GenerationError Generated :=
  let inventory := t.inventory
  match inventory.duplicateHelpers, inventory.duplicateSections with
  | name :: _, _ => .error ⟨.duplicateHelper name, ""⟩
  | [], name :: _ => .error ⟨.duplicateSection name, ""⟩
  | [], [] => do
    let ((), p) ← (Generation.segments casing t.segments).run .start
    return ⟨p.builder.finish, p.helpers, p.sections⟩

end TemplateView
