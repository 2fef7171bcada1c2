/-
Upper and lower case of text. A character may map to several (sharp s to two letters, a capital I with dot to a letter
and a mark), and a capital sigma that ends a word becomes the final small sigma.
-/
import TemplateView.Text.CaseTables

namespace TemplateView.Text

/-- the image of a character above ASCII: several characters, or one by a run, or itself -/
def mapCase (runs : List CaseRun) (many : List (Nat × List Nat)) (c : Char) : List Char :=
  match many.lookup c.toNat with
  | some cs => cs.map Char.ofNat
  | none =>
    match runs.findSome? (·.image? c.toNat) with
    | some n => [Char.ofNat n]
    | none => [c]

/-- the upper case of one character -/
def upperChar (c : Char) : List Char :=
  if c.toNat < 128 then [c.toUpper] else mapCase upperRuns upperMany c

/-- the lower case of one character, away from any word -/
def lowerChar (c : Char) : List Char :=
  if c.toNat < 128 then [c.toLower] else mapCase lowerRuns lowerMany c

/-- the upper case of a text, character by character -/
def upper (s : String) : String :=
  String.ofList (s.toList.flatMap upperChar)

/-- the first character that counts, in reading order, is a cased letter -/
def meetsCased (cs : List Char) : Bool :=
  match cs.dropWhile isCaseIgnorable with
  | c :: _ => isCased c
  | [] => false

/-- lower case after the characters `before`, nearest first -/
def lowerFrom (before : List Char) : List Char → List Char
  | [] => []
  | c :: cs =>
    let here :=
      if c = 'Σ' then (if meetsCased before && !meetsCased cs then ['ς'] else ['σ']) else lowerChar c
    here ++ lowerFrom (c :: before) cs

/-- the lower case of a text -/
def lower (s : String) : String :=
  String.ofList (lowerFrom [] s.toList)

/-- the text with its first character in lower case -/
def lowerFirst (s : String) : String :=
  match s.toList with
  | [] => ""
  | c :: cs => String.ofList (lowerChar c ++ cs)

end TemplateView.Text
