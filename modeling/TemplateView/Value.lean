/-
Values that a running view computes with, and their text. A model is a document read into a value once. `raw` is markup
to be written as it stands; as an operand it counts as its text.
-/
import TemplateView.Json
import TemplateView.Table
import TemplateView.Text.Blank

namespace TemplateView

/-- a value of a running view -/
inductive Value where
  | null
  | bool (b : Bool)
  | number (x : Float)
  | string (s : String)
  | array (items : List Value)
  /-- members in increasing order of their names -/
  | object (members : List (String × Value))
  | raw (markup : String)

namespace Value

instance : Inhabited Value := ⟨null⟩

/-- the kind of a value as templates know it -/
def typeName : Value → String
  | null => "null"
  | bool _ => "boolean"
  | number _ => "number"
  | string _ => "string"
  | raw _ => "string"
  | array _ => "array"
  | object _ => "object"

/-- the values that count as a condition that holds -/
def isTruthy : Value → Bool
  | null => false
  | bool b => b
  | number x => x != 0 && !x.isNaN
  | string s => !s.isEmpty
  | raw s => !s.isEmpty
  | array _ => true
  | object _ => true

/-- the text of a string or of markup -/
def text? : Value → Option String
  | string s => some s
  | raw s => some s
  | _ => none

/-- the value as a number; text is read as a decimal, blank text as zero -/
def toNumber : Value → Float
  | null => 0
  | bool b => if b then 1 else 0
  | number x => x
  | string s => ofText s
  | raw s => ofText s
  | array _ => Number.nan
  | object _ => Number.nan
where
  ofText (s : String) : Float :=
    let s := Text.trim s
    if s.isEmpty then 0 else (Number.read? s).getD Number.nan

/-! ## Documents -/

/-- the document of a number: whole where it is whole and not too large -/
def numberJson (x : Float) : Json :=
  match Number.plainWhole? x with
  | some n => .integer n
  | none => .float x

mutual

/-- the document of a value; markup is a string there, and small whole numbers are whole -/
def toJson : Value → Json
  | null => .null
  | bool b => .bool b
  | number x => numberJson x
  | string s => .string s
  | raw s => .string s
  | array items => .array (toJsonItems items)
  | object members => .object (toJsonMembers members)

def toJsonItems : List Value → List Json
  | [] => []
  | v :: vs => v.toJson :: toJsonItems vs

def toJsonMembers : List (String × Value) → List (String × Json)
  | [] => []
  | (name, v) :: ms => (name, v.toJson) :: toJsonMembers ms

end

mutual

/-- the value of a document; of members with one name the last counts -/
def ofJson : Json → Value
  | .null => null
  | .bool b => bool b
  | .integer n => number (Float.ofInt n)
  | .float x => number x
  | .string s => string s
  | .array items => array (ofJsonItems items)
  | .object members => object (Table.ofList (ofJsonMembers members))

def ofJsonItems : List Json → List Value
  | [] => []
  | j :: js => ofJson j :: ofJsonItems js

def ofJsonMembers : List (String × Json) → List (String × Value)
  | [] => []
  | (name, j) :: ms => (name, ofJson j) :: ofJsonMembers ms

end

/-! ## Text -/

/-- a number: without a point where it is whole and not too large -/
def numberText (x : Float) : String :=
  match Number.plainWhole? x with
  | some n => toString n
  | none => Number.write Number.plain x

mutual

/-- the value as text: items of an array between commas, an object as a document -/
def text : Value → String
  | null => "null"
  | bool b => if b then "true" else "false"
  | number x => numberText x
  | string s => s
  | raw s => s
  | array items => Text.join "," (itemTexts items)
  | object members => (object members).toJson.compact

/-- the texts of items to be joined, nothing for null -/
def itemTexts : List Value → List String
  | [] => []
  | null :: vs => "" :: itemTexts vs
  | v :: vs => v.text :: itemTexts vs

end

/-- the items of an array as text, with a separator between neighbours -/
def joinItems (separator : String) (items : List Value) : String :=
  Text.join separator (itemTexts items)

end Value

end TemplateView
