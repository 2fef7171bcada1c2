/-
Refused calls. A call that is refused leaves the stream as it was, so the calls behind it are answered as if it had not
been made. There is one exception (`refused_call_stays`): a call that skips whitespace takes the whitespace before it
finds that the source ends there, and does not put it back. That only happens where nothing but whitespace is left, and
to a call that gets as far as consuming: one with an expectation looks first, and the end meets no expectation but that
of the end.
-/
import TemplateView.Proofs.Cursor

namespace TemplateView

/-- the call takes what whitespace is next although the source ends behind it -/
def StreamCall.takesLastBlank : StreamCall → Bool
  | .consume .skipped | .consumeExpected .skipped (.category .endOfInput) => true
  | _ => false

/-- the end meets no expectation but that of the end -/
theorem Expected.matches_end {e : Expected} {t : Token} (ht : t.isEnd = true) :
    e.matches t = true ↔ e = .category .endOfInput := by
  have hk : t.category = .endOfInput := by simpa [Token.isEnd] using ht
  have hnone : ∀ s, t.is s = false := fun s => by rw [Token.is, hk]; rfl
  cases e with
  | text s => simp [Expected.matches, hnone]
  | oneOf texts => simp [Expected.matches, Token.isOneOf, hnone]
  | category c =>
    rw [Expected.matches, hk, beq_iff_eq, Expected.category.injEq]
    exact eq_comm

/-- no end is whitespace -/
theorem Token.solid_of_isEnd {t : Token} (h : t.isEnd = true) : t.isWhitespace = false := by
  rw [Token.isEnd, beq_iff_eq] at h
  rw [Token.isWhitespace, h]
  rfl

/-! ## A refused call on all tokens -/

namespace TokenStream

/-- nothing but whitespace is left -/
def onlyBlank (t : TokenStream) : Bool :=
  (t.peekNth 0).isWhitespace && (t.peekNth 1).isEnd

variable {t : TokenStream}

theorem isEnd_of_onlyBlank (h : t.onlyBlank = true) : (t.peek .skipped).isEnd = true := by
  rw [onlyBlank, Bool.and_eq_true] at h
  rw [peek_eq, firstSeen, if_pos h.1]
  exact h.2

/-- where skipping finds the end, it has passed over whitespace or nothing is left -/
theorem passBlank_end (h : (t.peek .skipped).isEnd = true) :
    t.passBlank .skipped = if t.onlyBlank then t.advance else t := by
  rw [peek_eq, firstSeen] at h
  rw [passBlank, onlyBlank]
  by_cases hblank : (t.peekNth 0).isWhitespace = true
  · rw [if_pos hblank] at h
    simp [hblank, h]
  · simp [hblank]

/-- only at the end is there nothing to consume -/
theorem consume_refused (h : t.Present) {b : Blanks} (hr : (StreamAnswer.ofResult (t.consume b).1).isRefusal = true) :
    (t.peek b).isEnd = true ∧ (t.consume b).2 = t.passBlank b := by
  rw [consume_eq h] at hr ⊢
  by_cases hend : (t.peek b).isEnd = true
  · rw [if_pos hend]
    exact ⟨hend, rfl⟩
  · rw [if_neg hend] at hr
    cases hr

/-- **What a refused call leaves.** It is the stream itself, unless the call takes the last whitespace. -/
theorem answer_refused (h : t.Present) {call : StreamCall} (hr : (t.answer call).1.isRefusal = true) :
    (t.answer call).2 = if call.takesLastBlank && t.onlyBlank then t.advance else t := by
  cases call with
  | consume b =>
    obtain ⟨hend, hleft⟩ := consume_refused h hr
    cases b with
    | kept => exact hleft
    | skipped => exact hleft.trans (passBlank_end hend)
  | consumeExpected b e =>
    have hanswer : t.answer (.consumeExpected b e) =
        if e.matches (t.peek b) then t.answer (.consume b)
        else (.refusal ⟨(t.peek b).position, e.describe, (t.peek b).describe⟩, t) := by
      simp only [answer, consumeExpected]
      split <;> rfl
    rw [hanswer] at hr ⊢
    by_cases hm : e.matches (t.peek b) = true
    · rw [if_pos hm] at hr ⊢
      obtain ⟨hend, hleft⟩ := consume_refused h hr
      obtain rfl := (Expected.matches_end hend).1 hm
      cases b with
      | kept => exact hleft
      | skipped => exact hleft.trans (passBlank_end hend)
    · -- an expectation of the end would have been met where only whitespace is left
      have hkeeps : (StreamCall.takesLastBlank (.consumeExpected b e) && t.onlyBlank) = false := by
        by_contra hk
        rw [Bool.not_eq_false, Bool.and_eq_true] at hk
        cases b with
        | kept => cases hk.1
        | skipped =>
          have he : e = .category .endOfInput := by
            have htakes := hk.1
            unfold StreamCall.takesLastBlank at htakes
            split at htakes <;> simp_all
          exact hm ((Expected.matches_end (isEnd_of_onlyBlank hk.2)).2 he)
      rw [if_neg hm, hkeeps]
      rfl
  | _ => cases hr

end TokenStream

/-! ## A refused call on a queue -/

namespace Lookahead

/-- the stream behind calls -/
def after (s : Lookahead) : List StreamCall → Lookahead
  | [] => s
  | call :: calls => (s.answer call).2.after calls

/-- nothing but whitespace is left -/
def onlyBlank (s : Lookahead) : Bool :=
  (s.peekNth 0).1.isWhitespace && (s.peekNth 1).1.isEnd

variable {s : Lookahead} {t : TokenStream}

theorem Agrees.onlyBlank (h : s.Agrees t) : s.onlyBlank = t.onlyBlank := by
  rw [Lookahead.onlyBlank, TokenStream.onlyBlank, (s.peekNth_eq 0).1, (s.peekNth_eq 1).1, h.ahead]

theorem Agrees.answersTo (h : s.Agrees t) (calls : List StreamCall) :
    answersTo Lookahead.answer s calls = answersTo TokenStream.answer t calls :=
  answersTo_eq (fun _ _ call h => h.answer call) h calls

/-- **Whatever calls lead to agrees with a stream that has its tokens from the start.** -/
theorem Agrees.after (h : s.Agrees t) (calls : List StreamCall) : ∃ t, (s.after calls).Agrees t := by
  induction calls generalizing s t with
  | nil => exact ⟨t, h⟩
  | cons call calls ih => exact ih (h.answer call).2

end Lookahead

/-- **A refused call leaves the stream where it was, but for the last whitespace.** Let any calls on the stream of any
source be followed by a call that is refused. Then all further calls are answered as if that one had not been made,
except in one case: nothing but whitespace is left and the call skips it, to consume whatever there is or to consume an
end. In that case the whitespace is gone, and the further calls are answered as if it had been consumed. -/
theorem refused_call_stays (source : String) (before : List StreamCall) (call : StreamCall)
    (h : (((Lookahead.ofSource source).after before).answer call).1.isRefusal = true) :
    let s := (Lookahead.ofSource source).after before
    ((∀ behind, answersTo Lookahead.answer (s.answer call).2 behind = answersTo Lookahead.answer s behind) ↔
      ¬ (call.takesLastBlank = true ∧ s.onlyBlank = true)) ∧
    (call.takesLastBlank = true ∧ s.onlyBlank = true → ∀ behind,
      answersTo Lookahead.answer (s.answer call).2 behind =
        answersTo Lookahead.answer (s.answer (.consume .kept)).2 behind) := by
  intro s
  obtain ⟨t, ht⟩ : ∃ t, s.Agrees t := (Lookahead.agrees_ofSource source).after before
  obtain ⟨hanswer, hbehind⟩ := ht.answer call
  rw [TokenStream.answer_refused ht.present (hanswer ▸ h), ← ht.onlyBlank] at hbehind
  rw [← Bool.and_eq_true]
  by_cases hc : (call.takesLastBlank && s.onlyBlank) = true
  · rw [if_pos hc] at hbehind
    obtain ⟨hblank, hend⟩ : (t.peekNth 0).isWhitespace = true ∧ (t.peekNth 1).isEnd = true := by
      rw [← Bool.and_eq_true, ← TokenStream.onlyBlank, ← ht.onlyBlank]
      exact (Bool.and_eq_true_iff.1 hc).2
    have hpresent : ¬ (t.peek .kept).isEnd = true := fun hfirst => by
      have hsolid : (t.peekNth 0).isWhitespace = false := Token.solid_of_isEnd hfirst
      rw [hblank] at hsolid
      cases hsolid
    refine ⟨iff_of_false (fun hall => ?_) (not_not.2 hc), fun _ behind => ?_⟩
    · -- a look at the next token sees the whitespace or the end
      have hlook := hall [.peek .kept]
      rw [hbehind.answersTo, ht.answersTo] at hlook
      have htoken : t.advance.peekNth 0 = t.peekNth 0 := StreamAnswer.token.inj (List.cons.inj hlook).1
      rw [← htoken, t.peekNth_advance, Token.solid_of_isEnd hend] at hblank
      cases hblank
    · have htake : (t.answer (.consume .kept)).2 = t.advance := by
        show (t.consume .kept).2 = t.advance
        rw [TokenStream.consume_eq ht.present, if_neg hpresent]
        rfl
      rw [hbehind.answersTo, (ht.answer (.consume .kept)).2.answersTo, htake]
  · rw [if_neg hc] at hbehind
    refine ⟨iff_of_true (fun behind => ?_) hc, fun hc' => absurd hc' hc⟩
    rw [hbehind.answersTo, ht.answersTo]

/-- an expectation that is not met, behind which there is whitespace and then nothing -/
theorem refused_call_stays_unmet :
    let s := (Lookahead.ofSource "a \n").after [.consume .kept, .peekNext .skipped]
    let call := StreamCall.consumeExpected .skipped (.oneOf ["b", "c"])
    (s.answer call).1.isRefusal = true ∧
      ∀ behind, answersTo Lookahead.answer (s.answer call).2 behind = answersTo Lookahead.answer s behind :=
  ⟨by decide +kernel, (refused_call_stays "a \n" [.consume .kept, .peekNext .skipped]
    (.consumeExpected .skipped (.oneOf ["b", "c"])) (by decide +kernel)).1.2 (by decide +kernel)⟩

/-- whitespace at the end of a source is gone after a call that is refused there -/
theorem last_blank_taken :
    answersTo Lookahead.answer (.ofSource " ") [.consume .skipped, .peek .kept] =
        [.refusal ⟨⟨1, 0, 1⟩, "more input", "end of input"⟩, .token ⟨⟨1, 0, 1⟩, "", .endOfInput⟩] ∧
      answersTo Lookahead.answer (.ofSource " ") [.peek .kept] = [.token ⟨⟨0, 0, 0⟩, " ", .whitespace⟩] := by
  decide +kernel

end TemplateView
