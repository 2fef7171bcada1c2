/-
Views: compiled templates that render models. A view holds its program, its helpers and its sections; a host adds
helpers of its own. Rendering changes nothing in a view.

A layout is a view around another one: it gets the other's sections and its markup as a context.

Every rendering is bounded: calls may nest as deep as the view allows, and no loop looks at its condition more often
than `steps` says. Beyond the second bound a run ends in `outOfSteps`, which is no result of the template.
-/
import TemplateView.Generation.Segment
import TemplateView.Grammar.Segment
import TemplateView.Run.Operation

namespace TemplateView

/-- what a call by name runs -/
inductive Helper where
  /-- declared in the template -/
  | declared (f : Fragment)
  /-- a function of the host -/
  | host (f : List Value → Except RenderError Value)

/-- what a layout gets from the view inside it -/
structure Context where
  /-- the markup of sections, for `renderSection` -/
  sections : Table String
  /-- the markup for `renderBody` -/
  body : Option String

def Context.empty : Context := ⟨[], none⟩

/-- a compiled template with its helpers and sections -/
structure View where
  program : Program
  helpers : Table Helper
  sections : Table Fragment
  inventory : Inventory
  /-- how deep calls of declared helpers may nest -/
  maxCallDepth : Nat

/-- the view of a template's programs -/
def Generated.view (g : Generated) (inventory : Inventory) (maxCallDepth : Nat) : View :=
  ⟨g.program, g.helpers.map fun (name, f) => (name, .declared f), g.sections, inventory, maxCallDepth⟩

/-- the view that a source text describes -/
def compile (options : Options) (source : String) : Except CompileError View :=
  match Template.parse source with
  | .error e => .error (.source e)
  | .ok template =>
    match template.generate options.casing with
    | .error e => .error (.generation e)
    | .ok g => .ok (g.view template.inventory options.maxCallDepth)

/-! ## Calls -/

/-- the markup of `raw(v)` -/
def rawText : Value → String
  | .null => ""
  | .raw markup => markup
  | v => v.text

/-- a call of a builtin, none for other names -/
def builtin? (context : Context) (name : String) (arguments : List Value) : Option (Except RenderError Value) :=
  match name with
  | "raw" => some (.ok (.raw (rawText (arguments.headD .null))))
  | "renderSection" =>
    match arguments.head? with
    | some (.string name) => some (.ok (.raw ((context.sections.get? name).getD "")))
    | _ => some (.error (.helper name "expects a section name"))
  | "renderBody" => some (.ok (.raw (context.body.getD "")))
  | _ => none

/-- what a rendering is made for -/
structure Occasion where
  model : Value
  context : Context
  /-- how often a loop may look at its condition -/
  steps : Nat

/-- the occasion of a model outside any layout -/
def Occasion.ofModel (steps : Nat) (model : Json) : Occasion := ⟨.ofJson model, .empty, steps⟩

/-- an error of the template as the end of a run -/
def Halt.ofError {α : Type} : Except RenderError α → Except Halt α
  | .ok a => .ok a
  | .error e => .error (.error e)

namespace View

/-- a call of a builtin or else a helper, given how declared helpers run -/
def callWith (v : View) (context : Context) (invoke : String → Fragment → List Value → Except Halt Value)
    (name : String) (arguments : List Value) : Except Halt Value :=
  match builtin? context name arguments with
  | some result => Halt.ofError result
  | none =>
    match v.helpers.get? name with
    | some (.declared f) => invoke name f arguments
    | some (.host f) => Halt.ofError (f arguments)
    | none => .error (.error (.unknownHelper name))

/-- the markup of a helper or a section when calls may nest `left` levels deeper -/
def invoke (v : View) (o : Occasion) : Nat → String → Fragment → List Value → Except Halt Value
  | 0, name, _, _ => .error (.error (.recursionLimit name v.maxCallDepth))
  | left + 1, _, f, arguments => do
    return .raw (← f.run ⟨o.model, v.callWith o.context (v.invoke o left), o.steps⟩ arguments)

/-- what the outermost programs of a view see -/
def surroundings (v : View) (o : Occasion) : Surroundings :=
  ⟨o.model, v.callWith o.context (v.invoke o v.maxCallDepth), o.steps⟩

/-! ## Rendering -/

/-- a bound on the rounds of a loop that no run reaches in practice -/
def ample : Nat := 1000000000000000000

/-- the markup of a model, with a context if the view is a layout -/
def renderWith (v : View) (steps : Nat) (model : Json) (context : Context) : Except Halt String :=
  v.program.run (v.surroundings ⟨.ofJson model, context, steps⟩) []

/-- the markup of a model -/
def render (v : View) (steps : Nat) (model : Json) : Except Halt String :=
  v.renderWith steps model .empty

/-- the value of a builtin or a helper for some arguments -/
def callHelper (v : View) (steps : Nat) (model : Json) (name : String) (arguments : List Value) : Except Halt Value :=
  (v.surroundings (.ofModel steps model)).call name arguments

/-- the markup of a section, nothing if there is none of that name -/
def renderSection (v : View) (steps : Nat) (model : Json) (name : String) : Except Halt String :=
  match v.sections.get? name with
  | none => .ok ""
  | some f => do return (← v.invoke (.ofModel steps model) v.maxCallDepth name f []).text

/-- the markup of all sections; the first error in the order of their names counts -/
def renderSections (v : View) (steps : Nat) (model : Json) : Except Halt (Table String) :=
  v.sections.keys.mapM fun name => do return (name, ← v.renderSection steps model name)

/-- the markup of a layout around the view -/
def renderInside (v layout : View) (steps : Nat) (model : Json) : Except Halt String := do
  let sections ← v.renderSections steps model
  let body ← v.render steps model
  layout.renderWith steps model ⟨sections, some body⟩

/-! ## Helpers -/

/-- the view with a helper of the host, in place of one of the same name -/
def register (v : View) (name : String) (f : List Value → Except RenderError Value) : View :=
  { v with helpers := v.helpers.insert name (.host f) }

def hasHelper (v : View) (name : String) : Bool :=
  Inventory.builtins.contains name || v.helpers.contains name

/-- names that the template calls and nothing defines -/
def missingHelpers (v : View) : List String :=
  v.inventory.externalHelpers.filter fun name => !v.helpers.contains name

/-! ## Text -/

/-- the view as the text of programs: its declared helpers and its sections before the main one -/
def source (v : View) : String :=
  let helpers := v.helpers.filterMap fun (name, h) =>
    match h with
    | .declared f => some (f.source "helpers" name)
    | .host _ => none
  let sections := v.sections.map fun (name, f) => f.source "sections" name
  Text.join "\n" (["var helpers = \x7b\x7d;", "var sections = \x7b\x7d;"] ++ helpers ++ sections ++ [v.program.source])

/-- names as a list of literals -/
def literals (names : List String) : String :=
  "[" ++ Text.join ", " (names.map Text.literal) ++ "]"

/-- the view on one line: its size and its names -/
def summary (v : View) : String :=
  "CompiledView \x7b ops: " ++ toString (Op.sizes v.program) ++ ", helpers: " ++ literals v.helpers.keys
    ++ ", sections: " ++ literals v.sections.keys ++ ", max_call_depth: " ++ toString v.maxCallDepth ++ " \x7d"

end View

end TemplateView
