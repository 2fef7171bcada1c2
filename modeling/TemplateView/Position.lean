/-
Places in a source text. A position counts bytes (UTF-8), lines and columns (characters) from zero; `positionAt` finds
it by reading the text from the start, so it is the meaning of every position that tokens and errors carry.

The second half shows a place to a reader: the text of its line, and a caret under its column.
-/
import TemplateView.Text.Search

namespace TemplateView

/-- a place in a source text -/
structure Position where
  /-- bytes before it -/
  index : Nat
  /-- line feeds before it -/
  line : Nat
  /-- characters between the last line feed and it -/
  column : Nat
deriving DecidableEq, Repr

namespace Position

/-- where a text begins -/
def start : Position := ⟨0, 0, 0⟩

/-- the place behind one more character -/
def step (p : Position) (c : Char) : Position :=
  if c = '\n' then ⟨p.index + 1, p.line + 1, 0⟩ else ⟨p.index + c.utf8Size, p.line, p.column + 1⟩

/-- the place behind some more characters -/
def after (p : Position) (cs : List Char) : Position :=
  cs.foldl step p

@[simp] theorem after_nil (p : Position) : p.after [] = p := rfl

@[simp] theorem after_cons (p : Position) (c : Char) (cs : List Char) : p.after (c :: cs) = (p.step c).after cs := rfl

theorem after_append (p : Position) (cs ds : List Char) : p.after (cs ++ ds) = (p.after cs).after ds := by
  simp [after, List.foldl_append]

/-- the text shown to readers, who count from one -/
def text (p : Position) : String :=
  s!"line {p.line + 1}, column {p.column + 1}"

end Position

/-- reads on from `p` while whole characters fit before `offset` -/
def scanTo (offset : Nat) (p : Position) : List Char → Position
  | [] => p
  | c :: cs => if p.index + c.utf8Size ≤ offset then scanTo offset (p.step c) cs else p

/-- the position of a byte offset: the end for an offset past it, the start of the character for one inside it -/
def positionAt (source : String) (offset : Nat) : Position :=
  scanTo offset Position.start source.toList

/-! ## Showing a place -/

/-- the text of a line counted from zero, without its end -/
def lineText (source : String) (line : Nat) : Option String :=
  (Text.splitOn ['\n'] source.toList)[line]?.map fun cs => String.ofList (Text.stripReturn cs)

/-- `n` copies of one character -/
def copies (n : Nat) (c : Char) : String :=
  String.ofList (List.replicate n c)

/-- the line of a position behind its number, and `width` carets (at least one) under the column -/
def snippet (source : String) (p : Position) (width : Nat) : Option String :=
  (lineText source p.line).map fun text =>
    let number := toString (p.line + 1)
    let gutter := max number.length 2
    copies gutter ' ' ++ " |\n"
      ++ copies (gutter - number.length) ' ' ++ number ++ " | " ++ text ++ "\n"
      ++ copies gutter ' ' ++ " | " ++ copies p.column ' ' ++ copies (max width 1) '^' ++ "\n"

end TemplateView
