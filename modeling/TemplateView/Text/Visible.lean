/-
Text as a diagnostic shows it: controls, unprintable characters, quotes and backslashes are escaped. `visible` is the
form inside backquotes, where a mark is escaped only in first place; `literal` is the form of a string literal.
-/
import TemplateView.Text.Unprintable

namespace TemplateView.Text

/-- a code point in lower-case hexadecimal -/
def codePointEscape (c : Char) : List Char :=
  ['\\', 'u', '\x7b'] ++ Nat.toDigits 16 c.toNat ++ ['\x7d']

/-- which characters an escaped form treats with care beside controls and backslashes -/
structure EscapeRule where
  /-- single quotes are escaped -/
  single : Bool
  /-- a mark that extends the grapheme before it is escaped -/
  extender : Bool

/-- one character in escaped form -/
def escapeChar (r : EscapeRule) (c : Char) : List Char :=
  match c with
  | '\x00' => ['\\', '0']
  | '\t' => ['\\', 't']
  | '\r' => ['\\', 'r']
  | '\n' => ['\\', 'n']
  | '\\' => ['\\', '\\']
  | '"' => ['\\', '"']
  | '\'' => if r.single then ['\\', '\''] else ['\'']
  | c => if (r.extender && isExtender c) || !isPrintable c then codePointEscape c else [c]

/-- the text in escaped form; a mark cannot show in first place, where it has nothing to join -/
def visible (s : String) : String :=
  match s.toList with
  | [] => ""
  | c :: cs => String.ofList (escapeChar ⟨true, true⟩ c ++ cs.flatMap (escapeChar ⟨true, false⟩))

/-- the text as a string literal in double quotes -/
def literal (s : String) : String :=
  "\"" ++ String.ofList (s.toList.flatMap (escapeChar ⟨false, true⟩)) ++ "\""

end TemplateView.Text
