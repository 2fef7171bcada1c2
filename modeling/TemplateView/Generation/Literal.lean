/-
The values that literals write. A literal is one of three words, a text in quotes of either kind, or a number.
-/
import TemplateView.Value

namespace TemplateView.Generation

/-- the character behind a backslash, by its letter; all but four stand for themselves -/
def escaped (c : Char) : Char :=
  match c with
  | 'n' => '\n'
  | 't' => '\t'
  | 'r' => '\r'
  | '0' => '\x00'
  | c => c

/-- text without its escapes; a backslash at the very end stays -/
def unescape : List Char → List Char
  | [] => []
  | ['\\'] => ['\\']
  | '\\' :: c :: cs => escaped c :: unescape cs
  | c :: cs => c :: unescape cs

/-- the characters between a quote and the same quote at the end -/
def unquote? (quote : Char) (cs : List Char) : Option (List Char) :=
  if cs.getLast? = some quote then some cs.dropLast else none

/-- the value that a literal writes -/
def literalValue? (raw : String) : Option Value :=
  match raw with
  | "true" => some (.bool true)
  | "false" => some (.bool false)
  | "null" => some .null
  | raw =>
    match raw.toList with
    | '"' :: cs => (unquote? '"' cs).map fun cs => .string (String.ofList (unescape cs))
    | '\'' :: cs => (unquote? '\'' cs).map fun cs => .string (String.ofList (unescape cs))
    | _ => (Number.read? raw).map .number

end TemplateView.Generation
