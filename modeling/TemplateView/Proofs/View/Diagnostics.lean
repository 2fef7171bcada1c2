/-
Where compile errors point. Every error of the source text carries the place of a token of the source, or of its end, and
this place is a true one: its bytes, its line and its column all say the same, so the diagnostic shows the line of that
place and a caret under the character there (`error_located`).
-/
import TemplateView.Proofs.Grammar.Ending
import TemplateView.Proofs.Position
import TemplateView.View

namespace TemplateView

namespace View

open TemplateView.Grammar TemplateView.Parser

/-- an error of the source is at the place of a token or of the end -/
theorem error_token {options : Options} {source : String} {e : SourceError}
    (h : compile options source = .error (.source e)) : ∃ t ∈ tokenize source, t.position = e.position := by
  have hplaced : (TokenStream.ofSource source).Placed fun p => ∃ t ∈ tokenize source, t.position = p :=
    ⟨fun t ht => ⟨t, List.mem_append_left _ ht, rfl⟩, _, List.mem_append_right _ List.mem_cons_self, rfl⟩
  obtain ⟨-, hend⟩ := settles_document _ hplaced (Nat.lt_succ_self _)
  unfold compile Template.parse Template.parseAs at h
  cases hd : document (segment .markup) (.ofSource source) with
  | error e' =>
    rw [hd] at h hend
    cases h
    exact hend.1
  | ok r =>
    rw [hd] at h
    simp only at h
    split at h <;> cases h

/-! ## Shown places -/

theorem length_copies (n : Nat) (c : Char) : (copies n c).length = n := by
  rw [copies, String.length_ofList, List.length_replicate]

/-- the caret stands in the column of its place, as both lines have margins of one width -/
theorem snippet_caret {source text : String} {p : Position} (h : lineText source p.line = some text) :
    ∃ top left margin, left.length = margin.length ∧
      snippet source p 1 = some (top ++ left ++ text ++ "\n" ++ margin ++ copies p.column ' ' ++ "^\n") := by
  rw [snippet, h]
  generalize toString (p.line + 1) = number
  refine ⟨copies (max number.length 2) ' ' ++ " |\n",
    copies (max number.length 2 - number.length) ' ' ++ number ++ " | ", copies (max number.length 2) ' ' ++ " | ", ?_, ?_⟩
  · simp only [String.length_append, length_copies]
    omega
  · simp only [Option.map_some, String.append_assoc]
    rfl

theorem renderAt_snippet {source file shown : String} {p : Position} (h : snippet source p 1 = some shown)
    (message : String) (help : Option String) :
    ∃ above below, renderAt source file p message help = above ++ shown ++ below := by
  unfold renderAt
  rw [h, Option.getD_some, String.append_assoc]
  exact ⟨_, _, rfl⟩

/-- the diagnostic of an error of the source holds its line and its caret -/
theorem render_snippet {source shown : String} {e : SourceError} (h : snippet source e.position 1 = some shown)
    (file : String) : ∃ above below, (CompileError.source e).render source file = above ++ shown ++ below := by
  cases e with
  | lexical e => exact renderAt_snippet (p := e.position) h e.brief none
  | grammatical e => exact renderAt_snippet (p := e.position) h _ e.help

/-- **Every error of the source points at a true place of it.** The place is that of its byte offset, and a token of the
source stands there, or its end. The line with its number is there and is shown; the characters of this line before its
column are those of the source between the last line feed before the place (or the start) and the place, and what the
line goes on with is what the source goes on with, so that the caret stands under the character at the place. -/
theorem error_located {options : Options} {source : String} {e : SourceError}
    (h : compile options source = .error (.source e)) :
    e.position = positionAt source e.position.index ∧
    (∃ t ∈ tokenize source, t.position = e.position) ∧
    ∃ head tail rest line, source.toList = head ++ tail ++ rest ∧
      e.position.index = (String.ofList (head ++ tail)).utf8ByteSize ∧
      LineStart head ∧ '\n' ∉ tail ∧
      (Text.splitOn ['\n'] source.toList)[e.position.line]? = some line ∧
      e.position.column = tail.length ∧ line.take e.position.column = tail ∧
      line.drop e.position.column = rest.takeWhile (· != '\n') ∧
      lineText source e.position.line = some (String.ofList (Text.stripReturn line)) ∧
      ∃ shown top left margin, snippet source e.position 1 = some shown ∧ left.length = margin.length ∧
        shown = top ++ left ++ String.ofList (Text.stripReturn line) ++ "\n" ++
          margin ++ copies e.position.column ' ' ++ "^\n" ∧
        ∀ file, ∃ above below, (CompileError.source e).render source file = above ++ shown ++ below := by
  obtain ⟨t, ht, hp⟩ := error_token h
  obtain ⟨before, rest, hsource, hplace⟩ := place_tokenize ht
  rw [hp] at hplace
  obtain ⟨head, tail, hbefore, hs, hn, hcolumn, hline⟩ := line_at before rest
  rw [← hplace] at hcolumn hline
  rw [← hsource] at hline
  have htext : lineText source e.position.line =
      some (String.ofList (Text.stripReturn (tail ++ rest.takeWhile (· != '\n')))) := by
    rw [lineText, hline]
    rfl
  obtain ⟨top, left, margin, hwidth, hshown⟩ := snippet_caret htext
  refine ⟨?_, ⟨t, ht, hp⟩, head, tail, rest, tail ++ rest.takeWhile (· != '\n'), ?_, ?_, hs, hn, hline, hcolumn.symm,
    ?_, ?_, htext, _, top, left, margin, hshown, hwidth, rfl, render_snippet hshown⟩
  · rw [positionAt, hsource, hplace, scanTo_after]
  · rw [hsource, hbefore]
  · rw [← hbefore, hplace, Position.index_after]
    exact Nat.zero_add _
  · rw [← hcolumn, List.take_left]
  · rw [← hcolumn, List.drop_left]

/-- an operand is missing, behind letters of two bytes and a carriage return -/
def unfinished : String := "<p>é</p>\r\n<b>ü@(n +\r\n  )</b>"

theorem error_located_unfinished :
    ∃ e, compile .default unfinished = .error (.source e) ∧ e.position = ⟨25, 2, 2⟩ ∧
      e.position = positionAt unfinished 25 ∧ lineText unfinished 2 = some "  )</b>" := by
  have hrun : (match compile .default unfinished with
      | .error (.source e) => e.position == ⟨25, 2, 2⟩
      | _ => false) = true := by decide +kernel
  split at hrun
  · next e h =>
    have hp : e.position = ⟨25, 2, 2⟩ := by simpa using hrun
    obtain ⟨htrue, -⟩ := error_located h
    refine ⟨e, h, hp, ?_, by decide +kernel⟩
    rw [hp] at htrue
    rw [hp]
    exact htrue
  · cases hrun

end View

end TemplateView
