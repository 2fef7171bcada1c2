/-
Places of a source. The position behind a part of a text counts the bytes of that part, its line feeds, and the
characters behind the last of these. So `positionAt` finds a place again from its bytes alone (`scanTo_after`), and its
line number finds the line that it is on (`line_at`). Tokens stand behind parts of their source.
-/
import Mathlib.Data.List.Induction
import TemplateView.Token

namespace TemplateView

/-! ## Bytes -/

theorem Position.index_step (p : Position) (c : Char) : (p.step c).index = p.index + c.utf8Size := by
  unfold step
  split
  · next h =>
    subst h
    rfl
  · rfl

theorem Position.index_le_after (p : Position) (cs : List Char) : p.index ≤ (p.after cs).index := by
  induction cs generalizing p with
  | nil => exact Nat.le_refl _
  | cons c cs ih =>
    have hstep : p.index ≤ (p.step c).index := by
      rw [index_step]
      exact Nat.le_add_right _ _
    exact Nat.le_trans hstep (ih (p.step c))

theorem Position.index_after (p : Position) (cs : List Char) :
    (p.after cs).index = p.index + (String.ofList cs).utf8ByteSize := by
  induction cs generalizing p with
  | nil => simp
  | cons c cs ih =>
    rw [after_cons, ih, index_step, String.ofList_cons, String.utf8ByteSize_append, String.utf8ByteSize_singleton,
      Nat.add_assoc]

/-- **A place is where its bytes end.** -/
theorem scanTo_after (p : Position) (before rest : List Char) :
    scanTo (p.after before).index p (before ++ rest) = p.after before := by
  induction before generalizing p with
  | nil =>
    cases rest with
    | nil => rfl
    | cons c cs =>
      have : 0 < c.utf8Size := Char.utf8Size_pos c
      rw [List.nil_append, scanTo, if_neg]
      · rfl
      · show ¬ p.index + c.utf8Size ≤ p.index
        omega
  | cons c cs ih =>
    have hle := (p.step c).index_le_after cs
    rw [Position.index_step] at hle
    rw [List.cons_append, scanTo, Position.after_cons, if_pos hle]
    exact ih (p.step c)

/-! ## Lines -/

/-- the start of a text, or the place behind a line feed -/
def LineStart (cs : List Char) : Prop := cs = [] ∨ cs.getLast? = some '\n'

/-- a place is behind some whole lines and some characters of one more, and counts both -/
theorem exists_lineStart (cs : List Char) :
    ∃ head tail, cs = head ++ tail ∧ LineStart head ∧ '\n' ∉ tail ∧
      (Position.start.after cs).line = head.count '\n' ∧ (Position.start.after cs).column = tail.length := by
  induction cs using List.reverseRecOn with
  | nil => exact ⟨[], [], rfl, .inl rfl, by simp, rfl, rfl⟩
  | append_singleton cs c ih =>
    obtain ⟨head, tail, rfl, hs, hn, hline, hcolumn⟩ := ih
    rw [Position.after_append, Position.after_cons, Position.after_nil, Position.step]
    by_cases hc : c = '\n'
    · subst hc
      rw [if_pos rfl]
      refine ⟨head ++ tail ++ ['\n'], [], by simp, .inr (by simp), by simp, ?_, rfl⟩
      show _ + 1 = _
      rw [hline, List.count_append, List.count_append, List.count_eq_zero.2 hn]
      rfl
    · rw [if_neg hc]
      refine ⟨head, tail ++ [c], by simp, hs, ?_, hline, ?_⟩
      · simp [hn, Ne.symm hc]
      · show _ + 1 = _
        rw [hcolumn, List.length_append]
        rfl

namespace Text

theorem splitOn_of_none {sep cs : List Char} (h : breakAt sep cs = none) : splitOn sep cs = [cs] := by
  rw [splitOn]
  split
  · rfl
  split
  · rfl
  · next hb =>
    rw [h] at hb
    cases hb

theorem splitOn_of_some {sep cs before rest : List Char} (hs : sep ≠ []) (h : breakAt sep cs = some (before, rest)) :
    splitOn sep cs = before :: splitOn sep rest := by
  rw [splitOn, dif_neg hs]
  split
  · next hb =>
    rw [h] at hb
    cases hb
  · next hb =>
    rw [h] at hb
    cases hb
    rfl

theorem splitOn_nil : splitOn ['\n'] [] = [[]] := splitOn_of_none rfl

theorem splitOn_newline (cs : List Char) : splitOn ['\n'] ('\n' :: cs) = [] :: splitOn ['\n'] cs :=
  splitOn_of_some (by simp) rfl

theorem splitOn_char {c : Char} (hc : c ≠ '\n') (cs : List Char) :
    splitOn ['\n'] (c :: cs) = (splitOn ['\n'] cs).modifyHead (c :: ·) := by
  have hb : breakAt ['\n'] (c :: cs) = (breakAt ['\n'] cs).map fun p => (c :: p.1, p.2) := by
    rw [breakAt, if_neg]
    simpa [List.isPrefixOf] using Ne.symm hc
  cases h : breakAt ['\n'] cs with
  | none =>
    rw [h] at hb
    rw [splitOn_of_none hb, splitOn_of_none h]
    rfl
  | some p =>
    rw [h] at hb
    rw [splitOn_of_some (by simp) hb, splitOn_of_some (by simp) h]
    rfl

/-- the first line ends before the first line feed -/
theorem splitOn_zero (cs : List Char) : (splitOn ['\n'] cs)[0]? = some (cs.takeWhile (· != '\n')) := by
  induction cs with
  | nil => rw [splitOn_nil]; rfl
  | cons c cs ih =>
    by_cases hc : c = '\n'
    · subst hc
      rw [splitOn_newline]
      rfl
    · rw [splitOn_char hc, List.getElem?_modifyHead, ih]
      simp [hc]

/-- whole lines in front are counted by their line feeds -/
theorem splitOn_behind {head : List Char} (h : LineStart head) (cs : List Char) :
    (splitOn ['\n'] (head ++ cs))[head.count '\n']? = (splitOn ['\n'] cs)[0]? := by
  induction head with
  | nil => rfl
  | cons c head ih =>
    have hh : LineStart head := by
      rcases h with h | h
      · cases h
      · cases head with
        | nil => exact .inl rfl
        | cons d ds => exact .inr (by rwa [List.getLast?_cons_cons] at h)
    by_cases hc : c = '\n'
    · subst hc
      rw [List.cons_append, splitOn_newline, List.count_cons_self, List.getElem?_cons_succ, ih hh]
    · -- a character that ends no line belongs to the first one, and the line asked for is a later one
      have hpos : 0 < head.count '\n' := by
        rcases hh with rfl | hh
        · simp [LineStart, hc] at h
        · exact List.count_pos_iff.2 (List.mem_of_getLast? hh)
      obtain ⟨n, hn⟩ : ∃ n, head.count '\n' = n + 1 := ⟨head.count '\n' - 1, by omega⟩
      rw [List.cons_append, splitOn_char hc, List.count_cons_of_ne hc, ← ih hh, hn]
      cases splitOn ['\n'] (head ++ cs) <;> rfl

end Text

/-- **The line of a place.** A place is on the line with its number, behind as many characters as its column says. -/
theorem line_at (before rest : List Char) :
    ∃ head tail, before = head ++ tail ∧ LineStart head ∧ '\n' ∉ tail ∧
      tail.length = (Position.start.after before).column ∧
      (Text.splitOn ['\n'] (before ++ rest))[(Position.start.after before).line]? =
        some (tail ++ rest.takeWhile (· != '\n')) := by
  obtain ⟨head, tail, rfl, hs, hn, hline, hcolumn⟩ := exists_lineStart before
  refine ⟨head, tail, rfl, hs, hn, hcolumn.symm, ?_⟩
  rw [hline, List.append_assoc, Text.splitOn_behind hs, Text.splitOn_zero, List.takeWhile_append_of_pos]
  intro c hc
  simpa using fun h : c = '\n' => hn (h ▸ hc)

/-! ## Tokens -/

theorem place_tokensFrom (p : Position) (cs : List Char) :
    ∀ t ∈ tokensFrom p cs, ∃ before rest, cs = before ++ rest ∧ t.position = p.after before := by
  fun_induction tokensFrom p cs with
  | case1 p => simp
  | case2 p c cs lexeme ih =>
    intro t ht
    rcases List.mem_cons.1 ht with rfl | ht
    · exact ⟨[], c :: cs, rfl, rfl⟩
    · obtain ⟨before, rest, hcs, hp⟩ := ih t ht
      refine ⟨lexeme.2.1 ++ before, rest, ?_, ?_⟩
      · rw [List.append_assoc, ← hcs]
        exact (firstLexeme_append c cs).symm
      · rw [hp, Position.after_append]

/-- the tokens of a source and its end stand behind parts of it -/
theorem place_tokenize {source : String} {t : Token} (h : t ∈ tokenize source) :
    ∃ before rest, source.toList = before ++ rest ∧ t.position = Position.start.after before := by
  rcases List.mem_append.1 h with h | h
  · exact place_tokensFrom .start source.toList t h
  · obtain rfl := List.mem_singleton.1 h
    exact ⟨source.toList, [], by simp, rfl⟩

end TemplateView
