/-
JSON documents and their text. Numbers are whole (of any size) or floating-point, as they were written; an object keeps
its members in the order they stand in, repeated names included.

Text is written in two layouts: compact, without any whitespace, and pretty, with one member or item on a line.
-/
import TemplateView.Number.Decimal
import TemplateView.Text.Search

namespace TemplateView

/-- a document -/
inductive Json where
  | null
  | bool (b : Bool)
  | integer (n : Int)
  | float (x : Float)
  | string (s : String)
  | array (items : List Json)
  | object (members : List (String × Json))

namespace Json

/-- **Numbers in documents**: positional from 10 ^ -5 up to below 10 ^ 16, else with an exponent; a whole number keeps
`.0`, and of two equally near decimals the even one is taken. -/
def numberFormat : Number.Format := ⟨.even, fun e => -5 ≤ e && e ≤ 15, ['.', '0']⟩

/-- a floating-point number; a document has no infinities, so they are null -/
def floatText (x : Float) : String :=
  if x.isFinite then Number.write numberFormat x else "null"

/-- two hexadecimal digits -/
def hexByte (n : Nat) : List Char :=
  [Nat.digitChar (n / 16), Nat.digitChar (n % 16)]

/-- a character inside a string: quotes, backslashes and controls are escaped -/
def escapeChar (c : Char) : List Char :=
  match c with
  | '"' => ['\\', '"']
  | '\\' => ['\\', '\\']
  | '\n' => ['\\', 'n']
  | '\r' => ['\\', 'r']
  | '\t' => ['\\', 't']
  | '\x08' => ['\\', 'b']
  | '\x0c' => ['\\', 'f']
  | c => if c.toNat < 0x20 then ['\\', 'u', '0', '0'] ++ hexByte c.toNat else [c]

def stringText (s : String) : String :=
  "\"" ++ String.ofList (s.toList.flatMap escapeChar) ++ "\""

mutual

/-- the document without whitespace -/
def compact : Json → String
  | null => "null"
  | bool b => if b then "true" else "false"
  | integer n => toString n
  | float x => floatText x
  | string s => stringText s
  | array items => "[" ++ Text.join "," (compactItems items) ++ "]"
  | object members => "\x7b" ++ Text.join "," (compactMembers members) ++ "\x7d"

def compactItems : List Json → List String
  | [] => []
  | j :: js => j.compact :: compactItems js

def compactMembers : List (String × Json) → List String
  | [] => []
  | (name, j) :: ms => (stringText name ++ ":" ++ j.compact) :: compactMembers ms

end

/-- parts on lines of their own between two marks, the lines `depth` steps in -/
def lay (depth : Nat) (first last : String) (parts : List String) : String :=
  if parts.isEmpty then first ++ last
  else
    let margin := String.ofList (List.replicate (2 * depth) ' ')
    first ++ "\n" ++ Text.join ",\n" (parts.map fun p => margin ++ "  " ++ p) ++ "\n" ++ margin ++ last

mutual

/-- the document with items and members on lines of their own, each level two spaces in -/
def pretty (depth : Nat) : Json → String
  | null => "null"
  | bool b => if b then "true" else "false"
  | integer n => toString n
  | float x => floatText x
  | string s => stringText s
  | array items => lay depth "[" "]" (prettyItems (depth + 1) items)
  | object members => lay depth "\x7b" "\x7d" (prettyMembers (depth + 1) members)

def prettyItems (depth : Nat) : List Json → List String
  | [] => []
  | j :: js => j.pretty depth :: prettyItems depth js

def prettyMembers (depth : Nat) : List (String × Json) → List String
  | [] => []
  | (name, j) :: ms => (stringText name ++ ": " ++ j.pretty depth) :: prettyMembers depth ms

end

/-- the last member of a name -/
def member? (name : String) : Json → Option Json
  | object members => members.reverse.lookup name
  | _ => none

end Json

end TemplateView
