/-
Parsers over a token stream: each takes tokens from the front or fails with a source error. `iterate` repeats a step
until it has a result. Every round of a loop must use up a token, so the number of tokens left bounds the rounds; a step
that used none would end in the error `noProgress`.
-/
import TemplateView.TokenStream

namespace TemplateView

/-- takes tokens from a stream and yields a result, or fails -/
abbrev Parser := StateT TokenStream (Except SourceError)

namespace Parser

/-- fails with an error of the grammar -/
def fail {α : Type} (e : ParseError) : Parser α :=
  fun _ => .error (.grammatical e)

/-- fails where nothing was consumed -/
def stalled {α : Type} : Parser α :=
  fun s => .error (.grammatical (.noProgress (s.peek .kept).position))

def peek (b : Blanks) : Parser Token :=
  fun s => .ok (s.peek b, s)

def peekNext (b : Blanks) : Parser Token :=
  fun s => .ok (s.peekNext b, s)

/-- `n` tokens past the next one, whitespace counted -/
def peekNth (n : Nat) : Parser Token :=
  fun s => .ok (s.peekNth n, s)

def atEnd : Parser Bool :=
  fun s => .ok (s.atEnd .kept, s)

/-- a consuming call of the stream as a parser -/
def taking (call : TokenStream → Except LexError Token × TokenStream) : Parser Token :=
  fun s =>
    match call s with
    | (.ok t, s') => .ok (t, s')
    | (.error e, _) => .error (.lexical e)

def consume (b : Blanks) : Parser Token :=
  taking (·.consume b)

/-- the next token, which must have this text -/
def expect (b : Blanks) (text : String) : Parser Token :=
  taking (·.consumeExpected b (.text text))

/-- the next token, which must have one of these texts -/
def expectOneOf (b : Blanks) (texts : List String) : Parser Token :=
  taking (·.consumeExpected b (.oneOf texts))

/-- the next token, which must be of this category -/
def expectCategory (b : Blanks) (c : Category) : Parser Token :=
  taking (·.consumeExpected b (.category c))

/-- the text of a word -/
def word (b : Blanks) : Parser String := do
  return (← expectCategory b .alphanumeric).text

/-- the whitespace that is next, or no text -/
def blank : Parser String := do
  if (← peek .kept).isWhitespace then
    return (← consume .kept).text
  else
    return ""

/-- at most `rounds` rounds of a step, from a state on, until one has a result -/
def loop {σ α : Type} (step : σ → Parser (σ ⊕ α)) : Nat → σ → Parser α
  | 0, _ => stalled
  | rounds + 1, a => do
    match ← step a with
    | .inl a => loop step rounds a
    | .inr r => return r

/-- a step, repeated until it has a result; there are rounds enough if all but the last use up a token -/
def iterate {σ α : Type} (a : σ) (step : σ → Parser (σ ⊕ α)) : Parser α :=
  fun s => loop step (s.remaining + 1) a s

/-- a parser that refers to itself: `unfold` says what it does in terms of the parser for shorter streams -/
def nested {ι α : Type} (unfold : (ι → Parser α) → ι → Parser α) : Nat → ι → Parser α
  | 0, _ => stalled
  | depth + 1, i => unfold (nested unfold depth) i

/-- a parser that refers to itself; the depth suffices if it does so only behind a token it has used up -/
def recursive {ι α : Type} (unfold : (ι → Parser α) → ι → Parser α) (i : ι) : Parser α :=
  fun s => nested unfold (s.remaining + 1) i s

end Parser

end TemplateView
