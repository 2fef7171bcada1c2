/-
Options of compilation, and their reading from a document. Keys that are not known are passed over; a known key given
twice, or with a value of the wrong kind, is refused. The document may also be an array of the values in order.
-/
import TemplateView.Json.Reader
import TemplateView.Text.Casing

namespace TemplateView

/-- how the names in a template become names of properties -/
inductive Casing where
  /-- as written -/
  | identity
  /-- with a small first letter -/
  | pascalToCamel
deriving DecidableEq, Repr

namespace Casing

def apply : Casing → String → String
  | identity, name => name
  | pascalToCamel, name => Text.lowerFirst name

def text : Casing → String
  | identity => "identity"
  | pascalToCamel => "pascalToCamel"

def ofText? (s : String) : Option Casing :=
  [identity, pascalToCamel].find? (·.text == s)

end Casing

/-- what can be set before a template is compiled -/
structure Options where
  casing : Casing
  /-- how deep calls of helpers may nest while a view renders -/
  maxCallDepth : Nat
deriving DecidableEq, Repr

namespace Options

def default : Options := ⟨.identity, 64⟩

/-- a casing by name, or as the only member of an object, with null -/
def casingOf? : Json → Option Casing
  | .string s => Casing.ofText? s
  | .object [(name, .null)] => Casing.ofText? name
  | _ => none

/-- a whole number of 64 bits -/
def depthOf? : Json → Option Nat
  | .integer (.ofNat n) => if n ≤ Json.wordMax then some n else none
  | _ => none

/-- the values of the members with a name; more than one is too many -/
def onlyMember? (name : String) (members : List (String × Json)) : Option (Option Json) :=
  match members.filter (·.1 == name) with
  | [] => some none
  | [(_, j)] => some (some j)
  | _ => none

/-- a value that may be missing -/
def orDefault {α : Type} (missing : α) (read? : Json → Option α) : Option Json → Option α
  | none => some missing
  | some j => read? j

def ofParts? (casing depth : Option Json) : Option Options := do
  let casing ← orDefault default.casing casingOf? casing
  let depth ← orDefault default.maxCallDepth depthOf? depth
  return ⟨casing, depth⟩

def ofJson? : Json → Option Options
  | .object members => do
    ofParts? (← onlyMember? "identifierCasing" members) (← onlyMember? "maxCallDepth" members)
  | .array items => if items.length ≤ 2 then ofParts? items[0]? items[1]? else none
  | _ => none

/-- the options that a text writes; values under unknown keys are only passed over, keys are read with care -/
def read? (text : String) : Option Options :=
  let cs := text.toList
  let item := Json.readValue .lenient cs.length
  let document : Option (Json × List Char) :=
    match Json.skipSpace cs with
    | '\x7b' :: cs =>
      match Json.skipSpace cs with
      | '\x7d' :: cs => some (.object [], cs)
      | cs => Json.readMembers .strict item (cs.length + 1) [] cs
    | cs => Json.readValue .strict Json.nestingLimit cs
  match document with
  | some (j, cs) => if Json.isFinished cs then ofJson? j else none
  | none => none

end Options

end TemplateView
