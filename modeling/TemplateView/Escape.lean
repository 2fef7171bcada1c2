/-
Escaping of text for markup. Escaped text holds none of the characters that end a text or an attribute value, so it may
stand in both.
-/
import TemplateView.Value

namespace TemplateView

/-- a character where markup is read: the five with a meaning there are named -/
def escapeChar (c : Char) : List Char :=
  match c with
  | '&' => "&amp;".toList
  | '<' => "&lt;".toList
  | '>' => "&gt;".toList
  | '\'' => "&apos;".toList
  | '"' => "&quot;".toList
  | c => [c]

/-- text that markup shows as it is -/
def escapeHtml (text : String) : String :=
  String.ofList (text.toList.flatMap escapeChar)

/-- what is written for a value: nothing for null, markup as it is, all else escaped -/
def Value.escaped : Value → String
  | .null => ""
  | .raw markup => markup
  | v => escapeHtml v.text

end TemplateView
