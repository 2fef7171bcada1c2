/-
Streams of tokens are a list with a cursor. A `Cursor` points into all tokens of a source, and the two streams answer as
it does (`stream_refines_cursor`): the one that cuts its source as it is asked, and the one a parser reads from, which
has its tokens from the start.

What a stream will answer is in the tokens ahead of it. For a `Lookahead` these are the queue, then the tokens of its
text, then the end again and again; cutting moves a token from the text to the queue and leaves what is ahead alone
(`ahead_cut`), so it does not matter how deep earlier calls have looked. A cursor skips all whitespace, a stream at most
one token of it: that is the same because runs of whitespace are maximal (`parted_tokensFrom`).
-/
import Mathlib.Data.List.GetD
import TemplateView.Lookahead
import TemplateView.Proofs.Tokens

namespace TemplateView

/-! ## A list with a cursor -/

/-- all tokens of a source, and the place of one of them -/
structure Cursor where
  tokens : List Token
  place : Nat
deriving DecidableEq, Repr

namespace Cursor

/-- the end of the source, which is the last token -/
def finish (c : Cursor) : Token := c.tokens.getLastD (.endOfInput .start)

/-- the tokens from the cursor on, without whitespace where it is skipped -/
def seen (c : Cursor) : Blanks → List Token
  | .kept => c.tokens.drop c.place
  | .skipped => (c.tokens.drop c.place).filter (!·.isWhitespace)

/-- the token `n` places past the first one that is seen; past the last one, the end again -/
def look (c : Cursor) (b : Blanks) (n : Nat) : Token := (c.seen b).getD n c.finish

/-- the place of the first token that is seen -/
def target (c : Cursor) : Blanks → Nat
  | .kept => c.place
  | .skipped => c.place + (c.tokens.drop c.place).findIdx (!·.isWhitespace)

/-- the first token that is seen, and the cursor just past it; a cursor at the end stays there -/
def consume (c : Cursor) (b : Blanks) : Except LexError Token × Cursor :=
  let t := c.look b 0
  if t.isEnd then (.error ⟨t.position, "more input", t.describe⟩, c) else (.ok t, { c with place := c.target b + 1 })

def consumeExpected (c : Cursor) (b : Blanks) (e : Expected) : Except LexError Token × Cursor :=
  let t := c.look b 0
  if e.matches t then c.consume b else (.error ⟨t.position, e.describe, t.describe⟩, c)

/-- a look leaves the cursor where it is -/
def answer (c : Cursor) : StreamCall → StreamAnswer × Cursor
  | .peek b => (.token (c.look b 0), c)
  | .peekNext b => (.token (c.look b 1), c)
  | .peekNth n => (.token (c.look .kept n), c)
  | .atEnd b => (.ended (c.look b 0).isEnd, c)
  | .consume b => (c.consume b).map .ofResult id
  | .consumeExpected b e => (c.consumeExpected b e).map .ofResult id

end Cursor

/-- the call only looks ahead -/
def StreamCall.looks : StreamCall → Bool
  | .consume _ | .consumeExpected _ _ => false
  | _ => true

/-! ## Streams that answer alike -/

section Answers

variable {σ τ : Type} {f : σ → StreamCall → StreamAnswer × σ} {g : τ → StreamCall → StreamAnswer × τ}
  {R : σ → τ → Prop}

/-- related streams answer alike where each call leaves them related -/
theorem answersTo_eq (hstep : ∀ s t call, R s t → (f s call).1 = (g t call).1 ∧ R (f s call).2 (g t call).2)
    {s : σ} {t : τ} (h : R s t) (calls : List StreamCall) : answersTo f s calls = answersTo g t calls := by
  induction calls generalizing s t with
  | nil => rfl
  | cons call calls ih =>
    obtain ⟨heq, hnext⟩ := hstep s t call h
    rw [answersTo, answersTo, heq, ih hnext]

/-- they answer alike up to the first refusal where each call that is not refused leaves them related -/
theorem answersTo_eq_of_accepted
    (hstep : ∀ s t call, R s t →
      (f s call).1 = (g t call).1 ∧ ((f s call).1.isRefusal = false → R (f s call).2 (g t call).2))
    {s : σ} {t : τ} (h : R s t) {calls : List StreamCall} (hcalls : ∀ a ∈ answersTo f s calls, a.isRefusal = false)
    (last : StreamCall) : answersTo f s (calls ++ [last]) = answersTo g t (calls ++ [last]) := by
  induction calls generalizing s t with
  | nil =>
    obtain ⟨heq, -⟩ := hstep s t last h
    simp [answersTo, heq]
  | cons call calls ih =>
    obtain ⟨heq, hnext⟩ := hstep s t call h
    rw [answersTo, List.forall_mem_cons] at hcalls
    rw [List.cons_append, answersTo, answersTo, heq, ih (hnext hcalls.1) hcalls.2]

/-- a call that leaves the stream as it was can be left out -/
theorem answersTo_erase {s : σ} {before : List StreamCall} {call : StreamCall}
    (hstay : ∀ t, (f t call).2 = t) (behind : List StreamCall) :
    (answersTo f s (before ++ call :: behind)).eraseIdx before.length = answersTo f s (before ++ behind) := by
  induction before generalizing s with
  | nil => simp [answersTo, hstay]
  | cons c before ih => simp [answersTo, ih]

end Answers

/-! ## What calls see of the tokens ahead -/

/-- a default is not told from a last element -/
theorem getD_append_default {α : Type} (l : List α) (d : α) (n : Nat) : (l ++ [d]).getD n d = l.getD n d := by
  rcases Nat.lt_or_ge n l.length with h | h
  · exact List.getD_append l [d] d n h
  · rw [List.getD_append_right l [d] d n h, List.getD_eq_default l d h]
    cases n - l.length <;> rfl

/-- the first token that a call sees of the tokens ahead, if at most one of two is whitespace -/
def firstSeen (ahead : Nat → Token) : Blanks → Token
  | .kept => ahead 0
  | .skipped => if (ahead 0).isWhitespace then ahead 1 else ahead 0

/-- the second one -/
def secondSeen (ahead : Nat → Token) : Blanks → Token
  | .kept => ahead 1
  | .skipped =>
    if (ahead 0).isWhitespace then
      if (ahead 2).isWhitespace then ahead 3 else ahead 2
    else if (ahead 1).isWhitespace then ahead 2
    else ahead 1

namespace TokenStream

theorem peekNth_advance (s : TokenStream) (n : Nat) : s.advance.peekNth n = s.peekNth (n + 1) := by
  simp [peekNth, advance, List.getD_eq_getElem?_getD]

theorem peekNth_passBlank (s : TokenStream) (n : Nat) :
    (s.passBlank .skipped).peekNth n = if (s.peekNth 0).isWhitespace then s.peekNth (n + 1) else s.peekNth n := by
  rw [passBlank]
  split
  · exact s.peekNth_advance n
  · rfl

theorem finish_passBlank (s : TokenStream) (b : Blanks) : (s.passBlank b).finish = s.finish :=
  passBlank_of_advance (P := (·.finish = s.finish)) rfl rfl b

theorem peek_eq (s : TokenStream) (b : Blanks) : s.peek b = firstSeen s.peekNth b := by
  cases b with
  | kept => rfl
  | skipped => exact s.peekNth_passBlank 0

theorem peekNext_eq (s : TokenStream) (b : Blanks) : s.peekNext b = secondSeen s.peekNth b := by
  cases b with
  | kept => exact s.peekNth_advance 0
  | skipped =>
    rw [peekNext, secondSeen]
    simp only [peekNth_passBlank, peekNth_advance]
    split <;> rfl

/-- the stream holds no end of the source -/
def Present (s : TokenStream) : Prop := ∀ t ∈ s.rest, t.isEnd = false

theorem Present.advance {s : TokenStream} (h : s.Present) : s.advance.Present :=
  fun t ht => h t (List.mem_of_mem_drop ht)

theorem Present.passBlank {s : TokenStream} (h : s.Present) (b : Blanks) : (s.passBlank b).Present :=
  passBlank_of_advance h h.advance b

theorem isEnd_peekNth_zero {s : TokenStream} (h : s.Present) : (s.peekNth 0).isEnd = s.rest.isEmpty := by
  cases hr : s.rest with
  | nil =>
    rw [peekNth, hr]
    rfl
  | cons t rest =>
    rw [peekNth, hr]
    exact h t (by simp [hr])

/-- a call that consumes, by what it looks at -/
theorem consume_eq {s : TokenStream} (h : s.Present) (b : Blanks) :
    s.consume b =
      if (s.peek b).isEnd then (.error ⟨(s.peek b).position, "more input", (s.peek b).describe⟩, s.passBlank b)
      else (.ok (s.peek b), (s.passBlank b).advance) := by
  have hend := isEnd_peekNth_zero (h.passBlank b)
  rw [peek, hend]
  simp only [consume]
  split
  · next t rest hr => simp [peekNth, advance, hr]
  · next hr => simp [peekNth, hr, Token.endOfInput, Token.describe, Token.isEnd]

theorem answer_looks {call : StreamCall} (h : call.looks = true) (s : TokenStream) : (s.answer call).2 = s := by
  cases call with
  | consume b => cases h
  | consumeExpected b e => cases h
  | _ => rfl

end TokenStream

/-! ## Lookahead answers as the stream does -/

namespace Lookahead

/-- the token `n` places ahead, wherever it still waits -/
def ahead (s : Lookahead) (n : Nat) : Token :=
  (s.queue ++ tokensFrom s.place s.text).getD n (.endOfInput (s.place.after s.text))

theorem ahead_cut (s : Lookahead) : s.cut.ahead = s.ahead := by
  obtain ⟨queue, text, place⟩ := s
  funext n
  cases text with
  | nil => simp only [cut, ahead, tokensFrom, Position.after_nil, List.append_nil, getD_append_default]
  | cons c cs =>
    -- the token is the first of those that the text stands for
    have hplace : (place.after (firstLexeme c cs).2.1).after (firstLexeme c cs).2.2 = place.after (c :: cs) := by
      rw [← Position.after_append, firstLexeme_append]
    simp only [cut, ahead]
    rw [tokensFrom_cons, hplace, List.append_assoc]
    rfl

theorem ahead_fill (s : Lookahead) (size : Nat) : (s.fill size).ahead = s.ahead := by
  rw [fill]
  induction size - s.queue.length with
  | zero => rfl
  | succ n ih => rw [Nat.repeat, ahead_cut, ih]

theorem queue_eq_ahead {s : Lookahead} {n : Nat} (h : n < s.queue.length) : s.queue[n] = s.ahead n := by
  rw [ahead, List.getD_append _ _ _ _ h, List.getD_eq_getElem _ _ h]

theorem queue_fill {s : Lookahead} {n size : Nat} (h : n < (s.fill size).queue.length) :
    (s.fill size).queue[n] = s.ahead n := by
  rw [queue_eq_ahead h, ahead_fill]

theorem ahead_drop {s : Lookahead} (h : 0 < s.queue.length) :
    ahead { s with queue := s.queue.drop 1 } = fun n => s.ahead (n + 1) := by
  obtain ⟨queue, text, place⟩ := s
  cases queue with
  | nil => cases h
  | cons t queue => rfl

/-! ### What each call answers, and what is ahead behind it -/

theorem peekNth_eq (s : Lookahead) (n : Nat) : (s.peekNth n).1 = s.ahead n ∧ (s.peekNth n).2.ahead = s.ahead :=
  ⟨queue_fill _, s.ahead_fill (n + 1)⟩

theorem peek_eq (s : Lookahead) (b : Blanks) : (s.peek b).1 = firstSeen s.ahead b ∧ (s.peek b).2.ahead = s.ahead := by
  cases b with
  | kept => exact s.peekNth_eq 0
  | skipped =>
    refine ⟨?_, s.ahead_fill 2⟩
    simp only [peek, queue_fill]
    rfl

theorem peekNext_eq (s : Lookahead) (b : Blanks) :
    (s.peekNext b).1 = secondSeen s.ahead b ∧ (s.peekNext b).2.ahead = s.ahead := by
  cases b with
  | kept => exact s.peekNth_eq 1
  | skipped =>
    refine ⟨?_, s.ahead_fill 4⟩
    simp only [peekNext, queue_fill]
    rfl

theorem take_end {s : Lookahead} (h : (s.ahead 0).isEnd = true) :
    s.take.1 = .error ⟨(s.ahead 0).position, "more input", (s.ahead 0).describe⟩ ∧ s.take.2.ahead = s.ahead := by
  obtain ⟨htoken, hahead⟩ := s.peekNth_eq 0
  simp [take, htoken, h, hahead]

theorem take_token {s : Lookahead} (h : (s.ahead 0).isEnd = false) :
    s.take.1 = .ok (s.ahead 0) ∧ s.take.2.ahead = fun n => s.ahead (n + 1) := by
  obtain ⟨htoken, hahead⟩ := s.peekNth_eq 0
  simp only [take, htoken, h, Bool.false_eq_true, if_false, true_and]
  rw [← hahead]
  exact ahead_drop (s.le_length_fill 1)

/-- the same tokens are ahead, and the end is only at their end -/
structure Agrees (s : Lookahead) (t : TokenStream) : Prop where
  ahead : s.ahead = t.peekNth
  present : t.Present

theorem agrees_ofSource (source : String) : (ofSource source).Agrees (.ofSource source) where
  ahead := rfl
  present := fun t ht => (proper_tokensFrom _ _ t ht).present

theorem Agrees.take {s : Lookahead} {t : TokenStream} (h : s.Agrees t) :
    s.take.1 = (t.consume .kept).1 ∧ s.take.2.Agrees (t.consume .kept).2 := by
  rw [TokenStream.consume_eq h.present, TokenStream.peek_eq, firstSeen, ← h.ahead]
  cases hend : (s.ahead 0).isEnd with
  | true =>
    obtain ⟨hanswer, hahead⟩ := take_end hend
    exact ⟨hanswer, hahead.trans h.ahead, h.present⟩
  | false =>
    obtain ⟨hanswer, hahead⟩ := take_token hend
    refine ⟨hanswer, ?_, h.present.advance⟩
    funext n
    rw [hahead, h.ahead]
    exact (t.peekNth_advance n).symm

theorem Agrees.consume {s : Lookahead} {t : TokenStream} (h : s.Agrees t) (b : Blanks) :
    (s.consume b).1 = (t.consume b).1 ∧ (s.consume b).2.Agrees (t.consume b).2 := by
  cases b with
  | kept => exact h.take
  | skipped =>
    obtain ⟨htoken, hahead⟩ := s.peek_eq .kept
    have hpeek : (s.peek .kept).2.Agrees t := ⟨hahead.trans h.ahead, h.present⟩
    have hskip : t.consume .skipped = (t.passBlank .skipped).consume .kept := rfl
    simp only [Lookahead.consume, htoken, hskip, TokenStream.passBlank, firstSeen, ← h.ahead]
    by_cases hblank : (s.ahead 0).isWhitespace = true
    · -- whitespace is no end, so it is taken
      have hend : ((s.peek .kept).2.ahead 0).isEnd = false := by
        rw [hahead]
        rw [Token.isWhitespace, beq_iff_eq] at hblank
        simp [Token.isEnd, hblank]
      obtain ⟨hfirst, hnext⟩ := hpeek.take
      rw [TokenStream.consume_eq h.present, TokenStream.peek_eq, firstSeen, ← h.ahead, ← hahead, hend] at hnext
      have hok := (take_token hend).1
      simp only [hblank, if_true]
      split
      · next heq =>
        rw [heq] at hnext
        exact hnext.take
      · next heq =>
        rw [heq] at hok
        cases hok
    · simp only [hblank]
      exact hpeek.take

theorem Agrees.consumeExpected {s : Lookahead} {t : TokenStream} (h : s.Agrees t) (b : Blanks) (e : Expected) :
    (s.consumeExpected b e).1 = (t.consumeExpected b e).1 ∧
      (s.consumeExpected b e).2.Agrees (t.consumeExpected b e).2 := by
  obtain ⟨htoken, hahead⟩ := s.peek_eq b
  have hpeek : (s.peek b).2.Agrees t := ⟨hahead.trans h.ahead, h.present⟩
  simp only [Lookahead.consumeExpected, TokenStream.consumeExpected, htoken, TokenStream.peek_eq, ← h.ahead]
  split
  · exact hpeek.consume b
  · exact ⟨rfl, hpeek⟩

/-- **A queue makes no difference.** However deep earlier calls have looked, a call answers as the stream does that has
all its tokens, and leaves the same tokens ahead. -/
theorem Agrees.answer {s : Lookahead} {t : TokenStream} (h : s.Agrees t) (call : StreamCall) :
    (s.answer call).1 = (t.answer call).1 ∧ (s.answer call).2.Agrees (t.answer call).2 := by
  have hstays : ∀ {s' : Lookahead}, s'.ahead = s.ahead → s'.Agrees t := fun hs => ⟨hs.trans h.ahead, h.present⟩
  cases call with
  | peek b =>
    obtain ⟨htoken, hahead⟩ := s.peek_eq b
    have heq : (s.peek b).1 = t.peek b := by rw [htoken, t.peek_eq, h.ahead]
    exact ⟨congrArg StreamAnswer.token heq, hstays hahead⟩
  | peekNext b =>
    obtain ⟨htoken, hahead⟩ := s.peekNext_eq b
    have heq : (s.peekNext b).1 = t.peekNext b := by rw [htoken, t.peekNext_eq, h.ahead]
    exact ⟨congrArg StreamAnswer.token heq, hstays hahead⟩
  | peekNth n =>
    obtain ⟨htoken, hahead⟩ := s.peekNth_eq n
    have heq : (s.peekNth n).1 = t.peekNth n := by rw [htoken, h.ahead]
    exact ⟨congrArg StreamAnswer.token heq, hstays hahead⟩
  | atEnd b =>
    obtain ⟨htoken, hahead⟩ := s.peek_eq b
    have heq : (s.atEnd b).1 = t.atEnd b := by
      simp only [Lookahead.atEnd, TokenStream.atEnd, htoken, t.peek_eq, h.ahead]
    exact ⟨congrArg StreamAnswer.ended heq, hstays hahead⟩
  | consume b =>
    obtain ⟨hanswer, hnext⟩ := h.consume b
    exact ⟨congrArg StreamAnswer.ofResult hanswer, hnext⟩
  | consumeExpected b e =>
    obtain ⟨hanswer, hnext⟩ := h.consumeExpected b e
    exact ⟨congrArg StreamAnswer.ofResult hanswer, hnext⟩

end Lookahead

/-! ## The stream answers as the cursor does -/

namespace TokenStream

/-- of two tokens next to each other, one is not whitespace -/
def Parted (s : TokenStream) : Prop := s.rest.IsChain Token.Parted

theorem Parted.advance {s : TokenStream} (h : s.Parted) : s.advance.Parted :=
  List.IsChain.suffix h (List.drop_suffix 1 s.rest)

theorem Parted.passBlank {s : TokenStream} (h : s.Parted) (b : Blanks) : (s.passBlank b).Parted :=
  passBlank_of_advance h h.advance b

/-- **Passing over one token passes over all whitespace.** -/
theorem rest_passBlank {s : TokenStream} (h : s.Parted) :
    (s.passBlank .skipped).rest = s.rest.dropWhile (·.isWhitespace) := by
  obtain ⟨rest, finish⟩ := s
  rcases rest with _ | ⟨t, _ | ⟨u, rest⟩⟩
  · rfl
  · by_cases ht : t.isWhitespace = true
    · simp [TokenStream.passBlank, peekNth, TokenStream.advance, ht]
    · simp [TokenStream.passBlank, peekNth, ht]
  · by_cases ht : t.isWhitespace = true
    · have hu : ¬ u.isWhitespace = true := fun hu => (List.isChain_cons_cons.1 h).1 ⟨ht, hu⟩
      simp [TokenStream.passBlank, peekNth, TokenStream.advance, ht, hu]
    · simp [TokenStream.passBlank, peekNth, ht]

/-- the first element that a filter keeps is the first one behind those that it drops -/
theorem filter_zero {α : Type} (p : α → Bool) (l : List α) (d : α) :
    (l.filter (!p ·)).getD 0 d = (l.dropWhile p).getD 0 d := by
  induction l with
  | nil => rfl
  | cons a l ih => by_cases ha : p a = true <;> simp_all

/-- and the others are kept of what stands behind it -/
theorem filter_drop {α : Type} (p : α → Bool) (l : List α) :
    (l.filter (!p ·)).drop 1 = ((l.dropWhile p).drop 1).filter (!p ·) := by
  induction l with
  | nil => rfl
  | cons a l ih => by_cases ha : p a = true <;> simp_all

/-- the tokens of the stream that are not whitespace -/
def solid (s : TokenStream) : List Token := s.rest.filter (!·.isWhitespace)

theorem solid_zero {s : TokenStream} (h : s.Parted) : s.solid.getD 0 (.endOfInput s.finish) = s.peek .skipped := by
  rw [solid, filter_zero, ← rest_passBlank h, peek, peekNth, finish_passBlank]

theorem solid_one {s : TokenStream} (h : s.Parted) :
    s.solid.getD 1 (.endOfInput s.finish) = s.peekNext .skipped := by
  have hdrop : s.solid.drop 1 = (s.passBlank .skipped).advance.solid := by
    rw [solid, filter_drop, ← rest_passBlank h]
    rfl
  have hfinish : (s.passBlank .skipped).advance.finish = s.finish := s.finish_passBlank .skipped
  calc s.solid.getD 1 (.endOfInput s.finish)
    _ = (s.solid.drop 1).getD 0 (.endOfInput s.finish) := by simp [List.getD_eq_getElem?_getD]
    _ = (s.passBlank .skipped).advance.peek .skipped := by
      rw [hdrop, ← hfinish]
      exact solid_zero (h.passBlank .skipped).advance
    _ = s.peekNext .skipped := rfl

end TokenStream

namespace Cursor

/-- the cursor stands where the stream does -/
structure PointsAt (c : Cursor) (s : TokenStream) : Prop where
  tokens : c.tokens.drop c.place = s.rest ++ [.endOfInput s.finish]
  present : s.Present
  parted : s.Parted

theorem pointsAt_ofSource (source : String) : PointsAt ⟨tokenize source, 0⟩ (.ofSource source) where
  tokens := rfl
  present := fun t ht => (proper_tokensFrom _ _ t ht).present
  parted := parted_tokensFrom _ _

variable {c : Cursor} {s : TokenStream}

theorem PointsAt.finish (h : c.PointsAt s) : c.finish = .endOfInput s.finish := by
  have hsplit := List.take_append_drop c.place c.tokens
  rw [h.tokens, ← List.append_assoc] at hsplit
  rw [Cursor.finish, ← hsplit, List.getLastD_concat]

theorem PointsAt.look_kept (h : c.PointsAt s) (n : Nat) : c.look .kept n = s.peekNth n := by
  rw [look, seen, h.tokens, h.finish, getD_append_default, TokenStream.peekNth]

theorem PointsAt.look_skipped (h : c.PointsAt s) (n : Nat) :
    c.look .skipped n = s.solid.getD n (.endOfInput s.finish) := by
  have hseen : c.seen .skipped = s.solid ++ [.endOfInput s.finish] := by
    rw [seen, h.tokens, List.filter_append]
    rfl
  rw [look, hseen, h.finish, getD_append_default]

theorem PointsAt.look_zero (h : c.PointsAt s) (b : Blanks) : c.look b 0 = s.peek b := by
  cases b with
  | kept => exact h.look_kept 0
  | skipped => exact (h.look_skipped 0).trans (TokenStream.solid_zero h.parted)

theorem PointsAt.look_one (h : c.PointsAt s) (b : Blanks) : c.look b 1 = s.peekNext b := by
  cases b with
  | kept => exact (h.look_kept 1).trans (s.peekNth_advance 0).symm
  | skipped => exact (h.look_skipped 1).trans (TokenStream.solid_one h.parted)

/-- the token that is looked at is the next one of the stream behind whitespace -/
theorem PointsAt.drop_target (h : c.PointsAt s) (b : Blanks) :
    c.tokens.drop (c.target b) = (s.passBlank b).rest ++ [.endOfInput s.finish] := by
  cases b with
  | kept => exact h.tokens
  | skipped =>
    rw [target, ← List.drop_drop, ← List.dropWhile_eq_drop_findIdx_not, h.tokens, TokenStream.rest_passBlank h.parted,
      List.dropWhile_append]
    split
    · next hnone =>
      rw [List.isEmpty_iff.1 hnone]
      rfl
    · rfl

theorem PointsAt.consume (h : c.PointsAt s) (b : Blanks) :
    (c.consume b).1 = (s.consume b).1 ∧
      ((StreamAnswer.ofResult (c.consume b).1).isRefusal = false → (c.consume b).2.PointsAt (s.consume b).2) := by
  have hpresent := h.present.passBlank b
  rw [Cursor.consume, TokenStream.consume_eq h.present, h.look_zero]
  by_cases hend : (s.peek b).isEnd = true
  · simp only [hend, if_true]
    exact ⟨trivial, fun hr => absurd hr (by simp [StreamAnswer.ofResult, StreamAnswer.isRefusal])⟩
  · rw [if_neg hend, if_neg hend]
    refine ⟨rfl, fun _ => ⟨?_, hpresent.advance, (h.parted.passBlank b).advance⟩⟩
    -- a token is next, so the end stays behind it
    have hne : 1 ≤ (s.passBlank b).rest.length := by
      rw [TokenStream.peek, TokenStream.isEnd_peekNth_zero hpresent, List.isEmpty_iff] at hend
      exact List.length_pos_iff.2 hend
    rw [← List.drop_drop, h.drop_target, List.drop_append_of_le_length hne, TokenStream.advance, s.finish_passBlank]

theorem PointsAt.consumeExpected (h : c.PointsAt s) (b : Blanks) (e : Expected) :
    (c.consumeExpected b e).1 = (s.consumeExpected b e).1 ∧
      ((StreamAnswer.ofResult (c.consumeExpected b e).1).isRefusal = false →
        (c.consumeExpected b e).2.PointsAt (s.consumeExpected b e).2) := by
  rw [Cursor.consumeExpected, TokenStream.consumeExpected, h.look_zero]
  by_cases hm : e.matches (s.peek b) = true
  · simp only [hm, if_true]
    exact h.consume b
  · simp only [hm]
    exact ⟨rfl, fun _ => h⟩

/-- **One call.** The cursor answers as the stream does, and stands where it does unless the call is refused. -/
theorem PointsAt.answer (h : c.PointsAt s) (call : StreamCall) :
    (c.answer call).1 = (s.answer call).1 ∧
      ((c.answer call).1.isRefusal = false → (c.answer call).2.PointsAt (s.answer call).2) := by
  cases call with
  | peek b => exact ⟨congrArg StreamAnswer.token (h.look_zero b), fun _ => h⟩
  | peekNext b => exact ⟨congrArg StreamAnswer.token (h.look_one b), fun _ => h⟩
  | peekNth n => exact ⟨congrArg StreamAnswer.token (h.look_kept n), fun _ => h⟩
  | atEnd b => exact ⟨congrArg (fun t : Token => StreamAnswer.ended t.isEnd) (h.look_zero b), fun _ => h⟩
  | consume b =>
    obtain ⟨hanswer, hnext⟩ := h.consume b
    exact ⟨congrArg StreamAnswer.ofResult hanswer, hnext⟩
  | consumeExpected b e =>
    obtain ⟨hanswer, hnext⟩ := h.consumeExpected b e
    exact ⟨congrArg StreamAnswer.ofResult hanswer, hnext⟩

end Cursor

/-! ## All calls -/

theorem answersTo_lookahead (source : String) (calls : List StreamCall) :
    answersTo Lookahead.answer (.ofSource source) calls = answersTo TokenStream.answer (.ofSource source) calls :=
  answersTo_eq (fun _ _ call h => h.answer call) (Lookahead.agrees_ofSource source) calls

/-- **Streams are a list with a cursor.** Calls on the stream that cuts `source` as it is asked, kept or skipping
whitespace and in any order, none of them refused but perhaps the last, are answered as by a cursor that points into the
tokens of the source, starting at the first; so are calls on the stream that has its tokens from the start. A call that
only looks ahead can be left out, and all other answers stay as they are. -/
theorem stream_refines_cursor (source : String) (calls : List StreamCall) (last : StreamCall)
    (h : ∀ a ∈ answersTo Lookahead.answer (.ofSource source) calls, a.isRefusal = false) :
    answersTo Lookahead.answer (.ofSource source) (calls ++ [last]) =
        answersTo Cursor.answer ⟨tokenize source, 0⟩ (calls ++ [last]) ∧
      answersTo TokenStream.answer (.ofSource source) (calls ++ [last]) =
        answersTo Cursor.answer ⟨tokenize source, 0⟩ (calls ++ [last]) ∧
      ∀ before look behind, calls ++ [last] = before ++ look :: behind → look.looks = true →
        answersTo Lookahead.answer (.ofSource source) (before ++ behind) =
          (answersTo Lookahead.answer (.ofSource source) (calls ++ [last])).eraseIdx before.length := by
  have hstream : answersTo TokenStream.answer (.ofSource source) (calls ++ [last]) =
      answersTo Cursor.answer ⟨tokenize source, 0⟩ (calls ++ [last]) := by
    rw [answersTo_lookahead] at h
    refine answersTo_eq_of_accepted (R := fun s c => c.PointsAt s) ?_ (Cursor.pointsAt_ofSource source) h last
    intro s c call hpoints
    obtain ⟨hanswer, hnext⟩ := hpoints.answer call
    exact ⟨hanswer.symm, fun hr => hnext (hanswer ▸ hr)⟩
  refine ⟨(answersTo_lookahead source _).trans hstream, hstream, ?_⟩
  intro before look behind hsplit hlooks
  rw [answersTo_lookahead, answersTo_lookahead, hsplit]
  exact (answersTo_erase (TokenStream.answer_looks hlooks) behind).symm

/-- an assignment: both manners, lookahead past the end, and at last nothing to consume -/
theorem stream_refines_cursor_assignment :
    let calls : List StreamCall :=
      [.peekNext .skipped, .consumeExpected .kept (.category .alphanumeric), .peekNth 7, .peek .skipped,
        .consumeExpected .skipped (.oneOf ["=", "+="]), .atEnd .kept, .consume .skipped]
    (∀ a ∈ answersTo Lookahead.answer (.ofSource "a  += b") calls, a.isRefusal = false) ∧
      answersTo Lookahead.answer (.ofSource "a  += b") (calls ++ [.consume .kept]) =
        answersTo Cursor.answer ⟨tokenize "a  += b", 0⟩ (calls ++ [.consume .kept]) :=
  ⟨by decide +kernel, (stream_refines_cursor "a  += b" _ (.consume .kept) (by decide +kernel)).1⟩

end TemplateView
