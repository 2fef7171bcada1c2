/-
A stream of tokens that cuts its source as it is asked. The tokens that calls have looked at and not consumed wait in a
queue; behind them the source is still text. Where the text is used up, the end of the source is put into the queue as
often as a call looks behind it. The two manners of a call, with whitespace and without, share the queue: skipping relies
on runs of whitespace being maximal, so that one of two tokens that follow each other is not whitespace.

`StreamCall` and `StreamAnswer` are the calls and what they answer, for this stream and for a `TokenStream`, which holds
the tokens of its source from the start.
-/
import TemplateView.TokenStream

namespace TemplateView

/-- tokens that wait to be consumed, and the text behind them, with its place -/
structure Lookahead where
  queue : List Token
  text : List Char
  place : Position
deriving DecidableEq, Repr

namespace Lookahead

def ofSource (source : String) : Lookahead :=
  ⟨[], source.toList, .start⟩

/-! ## The queue -/

/-- one more token in the queue -/
def cut (s : Lookahead) : Lookahead :=
  match s.text with
  | [] => { s with queue := s.queue ++ [.endOfInput s.place] }
  | c :: cs =>
    let lexeme := firstLexeme c cs
    ⟨s.queue ++ [⟨s.place, String.ofList lexeme.2.1, lexeme.1⟩], lexeme.2.2, s.place.after lexeme.2.1⟩

/-- `size` tokens in the queue, unless there are more -/
def fill (s : Lookahead) (size : Nat) : Lookahead :=
  Nat.repeat cut (size - s.queue.length) s

theorem length_cut (s : Lookahead) : s.cut.queue.length = s.queue.length + 1 := by
  unfold cut
  split <;> simp

theorem length_repeat_cut (n : Nat) (s : Lookahead) : (Nat.repeat cut n s).queue.length = s.queue.length + n := by
  induction n with
  | zero => rfl
  | succ n ih => rw [Nat.repeat, length_cut, ih, Nat.add_assoc]

theorem le_length_fill (s : Lookahead) (size : Nat) : size ≤ (s.fill size).queue.length := by
  rw [fill, length_repeat_cut]
  omega

/-! ## Calls -/

/-- `n` tokens past the next one -/
def peekNth (s : Lookahead) (n : Nat) : Token × Lookahead :=
  let filled := s.fill (n + 1)
  have : n + 1 ≤ filled.queue.length := s.le_length_fill (n + 1)
  (filled.queue[n], filled)

def peek (s : Lookahead) : Blanks → Token × Lookahead
  | .kept => s.peekNth 0
  | .skipped =>
    let filled := s.fill 2
    have second : 1 < filled.queue.length := s.le_length_fill 2
    have first : 0 < filled.queue.length := Nat.lt_of_succ_lt second
    (if filled.queue[0].isWhitespace then filled.queue[1] else filled.queue[0], filled)

def peekNext (s : Lookahead) : Blanks → Token × Lookahead
  | .kept => s.peekNth 1
  | .skipped =>
    let filled := s.fill 4
    have fourth : 3 < filled.queue.length := s.le_length_fill 4
    have third : 2 < filled.queue.length := Nat.lt_of_succ_lt fourth
    have second : 1 < filled.queue.length := Nat.lt_of_succ_lt third
    have first : 0 < filled.queue.length := Nat.lt_of_succ_lt second
    let token :=
      if filled.queue[0].isWhitespace then
        if filled.queue[2].isWhitespace then filled.queue[3] else filled.queue[2]
      else if filled.queue[1].isWhitespace then filled.queue[2]
      else filled.queue[1]
    (token, filled)

def atEnd (s : Lookahead) (b : Blanks) : Bool × Lookahead :=
  let (t, s) := s.peek b
  (t.isEnd, s)

/-- the next token, whitespace counted, unless the source ends there -/
def take (s : Lookahead) : Except LexError Token × Lookahead :=
  let (t, s) := s.peekNth 0
  if t.isEnd then (.error ⟨t.position, "more input", t.describe⟩, s)
  else (.ok t, { s with queue := s.queue.drop 1 })

/-- the next token; whitespace that is skipped is taken first -/
def consume (s : Lookahead) : Blanks → Except LexError Token × Lookahead
  | .kept => s.take
  | .skipped =>
    let (t, s) := s.peek .kept
    if t.isWhitespace then
      match s.take with
      | (.ok _, s) => s.take
      | (.error e, s) => (.error e, s)
    else s.take

/-- the next token if it is as required -/
def consumeExpected (s : Lookahead) (b : Blanks) (e : Expected) : Except LexError Token × Lookahead :=
  let (t, s) := s.peek b
  if e.matches t then s.consume b else (.error ⟨t.position, e.describe, t.describe⟩, s)

end Lookahead

/-! ## Calls as data -/

/-- a call on a stream of tokens -/
inductive StreamCall where
  | peek (b : Blanks)
  | peekNext (b : Blanks)
  | peekNth (n : Nat)
  | atEnd (b : Blanks)
  | consume (b : Blanks)
  | consumeExpected (b : Blanks) (e : Expected)

/-- what a call answers -/
inductive StreamAnswer where
  | token (t : Token)
  | ended (yes : Bool)
  | refusal (e : LexError)
deriving DecidableEq, Repr

def StreamAnswer.isRefusal : StreamAnswer → Bool
  | .refusal _ => true
  | _ => false

/-- the answer of a consuming call -/
def StreamAnswer.ofResult : Except LexError Token → StreamAnswer
  | .ok t => .token t
  | .error e => .refusal e

def Lookahead.answer (s : Lookahead) : StreamCall → StreamAnswer × Lookahead
  | .peek b => (s.peek b).map .token id
  | .peekNext b => (s.peekNext b).map .token id
  | .peekNth n => (s.peekNth n).map .token id
  | .atEnd b => (s.atEnd b).map .ended id
  | .consume b => (s.consume b).map .ofResult id
  | .consumeExpected b e => (s.consumeExpected b e).map .ofResult id

def TokenStream.answer (s : TokenStream) : StreamCall → StreamAnswer × TokenStream
  | .peek b => (.token (s.peek b), s)
  | .peekNext b => (.token (s.peekNext b), s)
  | .peekNth n => (.token (s.peekNth n), s)
  | .atEnd b => (.ended (s.atEnd b), s)
  | .consume b => (s.consume b).map .ofResult id
  | .consumeExpected b e => (s.consumeExpected b e).map .ofResult id

/-- the answers to calls that are made one after the other -/
def answersTo {σ : Type} (answer : σ → StreamCall → StreamAnswer × σ) (s : σ) : List StreamCall → List StreamAnswer
  | [] => []
  | call :: calls => (answer s call).1 :: answersTo answer (answer s call).2 calls

end TemplateView
