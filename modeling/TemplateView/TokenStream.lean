/-
A stream of tokens: the tokens still to be read and the place where the source ends, whose end-of-input token is seen
again and again behind the last one. Every call comes in two manners: whitespace is kept, or it is skipped; as runs of
whitespace are maximal, skipping passes over at most one token.

A call that fails to consume leaves the stream as it was, but for one: skipping passes over whitespace before it finds
the end of the source.
-/
import TemplateView.Diagnostic

namespace TemplateView

/-- whether whitespace tokens are seen -/
inductive Blanks where
  | kept
  | skipped
deriving DecidableEq, Repr

/-- what a consuming call requires of the next token -/
inductive Expected where
  | text (text : String)
  | oneOf (texts : List String)
  | category (category : Category)

def Expected.matches (e : Expected) (t : Token) : Bool :=
  match e with
  | text s => t.is s
  | oneOf texts => t.isOneOf texts
  | category c => t.category == c

def Expected.describe : Expected → String
  | text s => s!"`{s}`"
  | oneOf texts => "one of " ++ Text.join ", " (texts.map fun s => s!"`{s}`")
  | category c => c.describe

/-- the tokens still to be read, without the end of input -/
structure TokenStream where
  rest : List Token
  /-- where the source ends -/
  finish : Position

namespace TokenStream

def ofSource (source : String) : TokenStream :=
  ⟨tokensFrom .start source.toList, Position.start.after source.toList⟩

/-- the number of tokens before the end -/
def remaining (s : TokenStream) : Nat := s.rest.length

/-- `n` tokens past the next one -/
def peekNth (s : TokenStream) (n : Nat) : Token :=
  s.rest.getD n (.endOfInput s.finish)

/-- the stream behind its next token -/
def advance (s : TokenStream) : TokenStream :=
  { s with rest := s.rest.drop 1 }

/-- the stream behind the whitespace that may be next -/
def passBlank (s : TokenStream) : Blanks → TokenStream
  | .kept => s
  | .skipped => if (s.peekNth 0).isWhitespace then s.advance else s

def peek (s : TokenStream) (b : Blanks) : Token :=
  (s.passBlank b).peekNth 0

def peekNext (s : TokenStream) (b : Blanks) : Token :=
  ((s.passBlank b).advance.passBlank b).peekNth 0

def atEnd (s : TokenStream) (b : Blanks) : Bool :=
  (s.peek b).isEnd

/-- the next token and the stream behind it -/
def consume (s : TokenStream) (b : Blanks) : Except LexError Token × TokenStream :=
  let s := s.passBlank b
  match s.rest with
  | t :: rest => (.ok t, { s with rest := rest })
  | [] => (.error ⟨s.finish, "more input", Category.endOfInput.describe⟩, s)

/-- the next token if it is as required -/
def consumeExpected (s : TokenStream) (b : Blanks) (e : Expected) : Except LexError Token × TokenStream :=
  let t := s.peek b
  if e.matches t then s.consume b else (.error ⟨t.position, e.describe, t.describe⟩, s)

/-- passing over whitespace leaves the stream as it is, or advances it -/
theorem passBlank_of_advance {P : TokenStream → Prop} {s : TokenStream} (h : P s) (hadvance : P s.advance) (b : Blanks) :
    P (s.passBlank b) := by
  cases b with
  | kept => exact h
  | skipped =>
    rw [passBlank]
    split
    · exact hadvance
    · exact h

theorem remaining_passBlank (s : TokenStream) (b : Blanks) : (s.passBlank b).remaining ≤ s.remaining :=
  passBlank_of_advance (P := (·.remaining ≤ s.remaining)) (Nat.le_refl _) (by simp [remaining, advance]) b

end TokenStream

end TemplateView
