/-
Generation without a builder. `sited` gives the operations of a segment directly, by recursion over the template: every
piece of text is an operation of its own, the declared names are an argument, and each expression stays together with
the names under which it was lowered, its site. `SitedOp.erase` forgets the sites, and `Op.pack` joins neighbouring
texts as a builder does.

That the generator does the same, with the scopes of its builder as the names, is shown in `Generation/Assembly`.
-/
import TemplateView.Generation.Segment

namespace TemplateView

/-! ## Declared names -/

/-- names in scopes: those of the innermost scope, and those of the scopes around it, innermost first -/
structure Names where
  scope : List String
  outer : List (List String)
deriving DecidableEq, Repr

namespace Names

def empty : Names := ⟨[], []⟩

/-- a name in the innermost scope -/
def declare (n : Names) (name : String) : Names :=
  { n with scope := if n.scope.contains name then n.scope else name :: n.scope }

/-- one scope that holds some names -/
def ofLocals (locals : List String) : Names := locals.foldl declare empty

/-- the names with a new innermost scope -/
def nest (n : Names) : Names := ⟨[], n.scope :: n.outer⟩

def isDeclared (n : Names) (name : String) : Bool :=
  n.scope.contains name || n.outer.any (·.contains name)

/-- what an expression means where these names are declared -/
def naming (casing : Casing) (n : Names) : Generation.Naming := ⟨casing, n.isDeclared⟩

theorem isDeclared_nest (n : Names) (name : String) : n.nest.isDeclared name = n.isDeclared name := rfl

theorem isDeclared_declare (n : Names) (name other : String) :
    (n.declare name).isDeclared other = (other == name || n.isDeclared other) := by
  unfold declare isDeclared
  split
  · next h =>
    by_cases ho : other = name
    · subst ho; simp [List.contains_iff_mem.1 h]
    · simp [ho]
  · by_cases ho : other = name <;> simp [ho]

end Names

/-- the names that a builder has declared -/
def Builder.names (b : Builder) : Names := ⟨b.scope, b.outerScopes⟩

/-! ## Operations with sites -/

/-- a lowered expression, with what it was lowered from and the names that were declared then -/
structure Site (casing : Casing) where
  names : Names
  source : Expression
  expr : Expr
  lowered : (names.naming casing).expression source = .ok expr

/-- an operation whose expressions have sites -/
inductive SitedOp (casing : Casing) where
  | text (text : String)
  | emit (value : Site casing)
  | beginAttribute (opening : String)
  | attributeText (text : String)
  | attributeValue (value : Site casing)
  | endAttribute (closing : String)
  | declare (name : String) (init : Option (Site casing))
  | eval (value : Site casing)
  | branch (test : Site casing) (whenTrue whenFalse : List (SitedOp casing))
  | loop (counter : String) (init : Option (Site casing)) (condition iteration : Site casing)
      (body : List (SitedOp casing))
  | each (item : String) (collection : Site casing) (body : List (SitedOp casing))

/-- an operation behind others, as a builder puts it there: text joins text, and no text is none -/
def Op.add (ops : List Op) : Op → List Op
  | .text s => if s.isEmpty then ops else Builder.appendText ops s
  | op => ops ++ [op]

/-- operations behind others, as a builder puts them there -/
def Op.pack (ops more : List Op) : List Op := more.foldl Op.add ops

mutual

/-- the operation without its sites, its bodies packed -/
def SitedOp.erase {casing : Casing} : SitedOp casing → Op
  | .text s => .text s
  | .emit value => .emit value.expr
  | .beginAttribute opening => .beginAttribute opening
  | .attributeText s => .attributePart (.text s)
  | .attributeValue value => .attributePart (.value value.expr)
  | .endAttribute closing => .endAttribute closing
  | .declare name init => .declare name (init.map Site.expr)
  | .eval value => .eval value.expr
  | .branch test whenTrue whenFalse =>
    .branch test.expr (Op.pack [] (SitedOp.eraseAll whenTrue)) (Op.pack [] (SitedOp.eraseAll whenFalse))
  | .loop counter init condition iteration body =>
    .loop counter (init.map Site.expr) condition.expr iteration.expr (Op.pack [] (SitedOp.eraseAll body))
  | .each item collection body => .each item collection.expr (Op.pack [] (SitedOp.eraseAll body))

def SitedOp.eraseAll {casing : Casing} : List (SitedOp casing) → List Op
  | [] => []
  | op :: ops => op.erase :: SitedOp.eraseAll ops

end

/-- the program of operations with sites -/
def SitedOp.program {casing : Casing} (ops : List (SitedOp casing)) : Program := Op.pack [] (SitedOp.eraseAll ops)

namespace Generation

/-! ## Segments -/

/-- an expression lowered under some names -/
def site (casing : Casing) (names : Names) (source : Expression) : Except GenerationCause (Site casing) :=
  match h : (names.naming casing).expression source with
  | .ok expr => .ok ⟨names, source, expr, h⟩
  | .error cause => .error cause

def siteOption (casing : Casing) (names : Names) : Option Expression → Except GenerationCause (Option (Site casing))
  | none => return none
  | some e => return some (← site casing names e)

/-- a piece of an attribute value -/
def sitedPart (casing : Casing) (names : Names) : ValuePart → Except GenerationCause (SitedOp casing)
  | .text text => return .attributeText (Text.trim text)
  | .inline i => return .attributeValue (← site casing names i.expression)

def sitedParts (casing : Casing) (names : Names) : List ValuePart → Except GenerationCause (List (SitedOp casing))
  | [] => return []
  | p :: ps => do
    let op ← sitedPart casing names p
    return op :: (← sitedParts casing names ps)

def sitedAttribute (casing : Casing) (names : Names) (a : Attribute) : Except GenerationCause (List (SitedOp casing)) :=
  match a.quote with
  | none => return [.text (a.leading ++ a.name)]
  | some quote =>
    if a.values.any ValuePart.isInline then do
      let parts ← sitedParts casing names a.values
      return .beginAttribute (opening a quote) :: (parts ++ [.endAttribute (String.singleton quote)])
    else
      return [.text (opening a quote ++ String.join (a.values.map plainText) ++ String.singleton quote)]

def sitedAttributes (casing : Casing) (names : Names) : List Attribute → Except GenerationCause (List (SitedOp casing))
  | [] => return []
  | a :: as => do
    let ops ← sitedAttribute casing names a
    return ops ++ (← sitedAttributes casing names as)

/-- a start tag up to its end -/
def sitedTag (casing : Casing) (names : Names) (tag : Tag) : Except GenerationCause (List (SitedOp casing)) := do
  let attributes ← sitedAttributes casing names tag.attributes
  return .text (tag.leading ++ "<" ++ tag.name) :: (attributes ++ [.text tag.beforeEnd])

mutual

/-- the operations of a segment, and the names declared behind it -/
def sited (casing : Casing) (names : Names) : Segment → Except GenerationCause (List (SitedOp casing) × Names)
  | .text text => return ([.text text], names)
  | .element tag children close => do
    let head ← sitedTag casing names tag
    let (ops, names) ← sitedAll casing names children
    return (head ++ .text ">" :: (ops ++ [.text (endTagText close)]), names)
  | .emptyElement tag closing => do
    let head ← sitedTag casing names tag
    return (head ++ [.text (closingText closing)], names)
  | .htmlComment leading text => return ([.text (leading ++ "<!--" ++ text ++ "-->")], names)
  | .docType leading declaration => return ([.text (leading ++ "<!" ++ declaration ++ ">")], names)
  | .inline i => do
    let value ← site casing names i.expression
    return ([.text i.leading, .emit value], names)
  | .block ss => sitedAll casing names ss
  | .declaration d => do
    let init ← siteOption casing names d.init
    return ([.declare d.name init], names.declare d.name)
  | .branch test ss otherwise => do
    let test ← site casing names test
    let (whenTrue, _) ← sitedAll casing names.nest ss
    let whenFalse ← sitedAlternative casing names otherwise
    return ([.branch test whenTrue whenFalse], names)
  | .loop counter condition iteration ss => do
    let init ← siteOption casing names.nest counter.init
    let condition ← site casing (names.nest.declare counter.name) condition
    let iteration ← site casing (names.nest.declare counter.name) iteration
    let (body, _) ← sitedAll casing (names.nest.declare counter.name).nest ss
    return ([.loop counter.name init condition iteration body], names)
  | .each item collection ss => do
    let collection ← site casing names collection
    let (body, _) ← sitedAll casing (names.nest.declare item) ss
    return ([.each item collection body], names)
  | .action e => do
    let value ← site casing names e
    return ([.eval value], names)
  | .helper _ parameters ss => do
    let _ ← sitedAll casing (.ofLocals parameters) ss
    return ([], names)
  | .namedSection _ ss => do
    let _ ← sitedAll casing (.ofLocals []) ss
    return ([], names)
  | .comment _ => return ([], names)

def sitedAll (casing : Casing) (names : Names) : List Segment → Except GenerationCause (List (SitedOp casing) × Names)
  | [] => return ([], names)
  | s :: ss => do
    let (ops, names) ← sited casing names s
    let (more, names) ← sitedAll casing names ss
    return (ops ++ more, names)

/-- the operations of what follows the body of an `if` -/
def sitedAlternative (casing : Casing) (names : Names) : Alternative → Except GenerationCause (List (SitedOp casing))
  | .nothing => return []
  | .elseBranch test ss otherwise | .both test ss otherwise _ => do
    let test ← site casing names test
    let (whenTrue, _) ← sitedAll casing names.nest ss
    let whenFalse ← sitedAlternative casing names otherwise
    return [.branch test whenTrue whenFalse]
  | .elseBody ss => do
    let (ops, _) ← sitedAll casing names.nest ss
    return ops

end

/-! ## Declarations -/

/-- a helper or a section that a template declares -/
structure Declared where
  isHelper : Bool
  name : String
  parameters : List String
  body : List Segment

mutual

/-- the helpers and sections declared in a segment, at whatever depth, inner ones first; the body beside a further `if` is
passed over as in generation -/
def declared : Segment → List Declared
  | .element _ children _ => declaredAll children
  | .block ss => declaredAll ss
  | .branch _ ss otherwise => declaredAll ss ++ declaredAlternative otherwise
  | .loop _ _ _ ss => declaredAll ss
  | .each _ _ ss => declaredAll ss
  | .helper name parameters ss => declaredAll ss ++ [⟨true, name, parameters, ss⟩]
  | .namedSection name ss => declaredAll ss ++ [⟨false, name, [], ss⟩]
  | _ => []

def declaredAll : List Segment → List Declared
  | [] => []
  | s :: ss => declared s ++ declaredAll ss

def declaredAlternative : Alternative → List Declared
  | .nothing => []
  | .elseBranch _ ss otherwise | .both _ ss otherwise _ => declaredAll ss ++ declaredAlternative otherwise
  | .elseBody ss => declaredAll ss

end

/-- the operations of a declared body, none where it cannot be lowered -/
def Declared.sited (casing : Casing) (d : Declared) : List (SitedOp casing) :=
  match sitedAll casing (.ofLocals d.parameters) d.body with
  | .ok (ops, _) => ops
  | .error _ => []

/-- the fragment of a declared helper or section -/
def Declared.fragment (casing : Casing) (d : Declared) : Fragment :=
  ⟨d.parameters, SitedOp.program (d.sited casing)⟩

end Generation

/-- the helpers that a template declares, by name -/
def Template.helpers (t : Template) : List (String × Generation.Declared) :=
  ((Generation.declaredAll t.segments).filter (·.isHelper)).map fun d => (d.name, d)

/-- the sections that a template declares, by name -/
def Template.sections (t : Template) : List (String × Generation.Declared) :=
  ((Generation.declaredAll t.segments).filter (!·.isHelper)).map fun d => (d.name, d)

end TemplateView
