/-
Blank characters (the Unicode property White_Space) and trimming. The tokens of a template know a smaller set of
whitespace; this is the set that text operations use.
-/
namespace TemplateView.Text

/-- White_Space: tab to carriage return, space, next line, and the spaces and separators above ASCII -/
def isBlank (c : Char) : Bool :=
  let n := c.toNat
  (9 ≤ n && n ≤ 13) || n == 0x20 || n == 0x85 || n == 0xA0 || n == 0x1680 || (0x2000 ≤ n && n ≤ 0x200A)
    || n == 0x2028 || n == 0x2029 || n == 0x202F || n == 0x205F || n == 0x3000

/-- without the blanks at both ends -/
def trimChars (cs : List Char) : List Char :=
  ((cs.dropWhile isBlank).reverse.dropWhile isBlank).reverse

/-- without the blanks at both ends -/
def trim (s : String) : String :=
  String.ofList (trimChars s.toList)

end TemplateView.Text
