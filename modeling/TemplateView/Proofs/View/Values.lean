/-
Text in attribute values. `value_parts` says how the text of a value is cut into parts: an `@@` does not join the text
around it but splits it, and in an attribute with an expression, whose parts are written with spaces between them, a
space appears there (`escape_splits_text`).
-/
import TemplateView.Proofs.Generation.Compilation
import TemplateView.Proofs.Grammar.Values

namespace TemplateView

namespace Grammar

open TemplateView.Parser

/-- **How text is cut in attribute values.** A value that can be read is a row of pieces, and its parts are theirs, text
being cut before each `@`, whatever that opens. Joined again where it was cut, it is all text between two expressions,
with each `@@` read as `@` and comments left out. So it is in the parts themselves, with no two texts side by side, where
no `@@` and no comment stands behind text; but an `@@` behind text always leaves two texts side by side, and a comment
between texts does too. -/
theorem value_parts {inner : Place → Parser Segment} {quote : Token} {s t : TokenStream} {result : List ValuePart}
    (h : valueParts (embedded inner) quote s = .ok (result, t)) :
    ∃ pieces, ReadsValue quote.text s.finish "" s.rest pieces t.rest ∧ result = Piece.parts "" pieces ∧
      joinTexts result = Piece.joined "" pieces ∧
      ((pieces.IsChain fun a b => ¬ (a.isText = true ∧ b.isCut = true)) →
        result = Piece.joined "" pieces ∧ TextsApart result) ∧
      ∀ before a b after, pieces = before ++ a :: b :: after → a.behind ≠ "" → b.isCut = true →
        (b.behind ≠ "" ∨ ∃ p ∈ after.head?, p.behind ≠ "") → ¬ TextsApart result := by
  obtain ⟨pieces, hreads, hresult⟩ := reads_loop h
  rw [List.nil_append] at hresult
  subst hresult
  refine ⟨pieces, hreads, rfl, Piece.joinTexts_parts "" pieces, fun hchain => ?_, ?_⟩
  · have hj := Piece.parts_eq_joined hchain (.inl rfl)
    exact ⟨hj, hj ▸ Piece.textsApart_joined "" pieces⟩
  · rintro before a b after rfl ha hb hc
    exact Piece.not_textsApart ha hb hc ""

/-- an address, an `@@` behind text and one behind an expression, and a comment -/
theorem value_parts_addresses :
    ∃ result t, valueParts (embedded segment) ⟨.start, "\"", .operator⟩
        (TokenStream.ofSource "me@x.org, a@@b @name@@c@* d *@\">") = .ok (result, t) ∧
      ∃ pieces, result = Piece.parts "" pieces ∧ joinTexts result = Piece.joined "" pieces := by
  obtain ⟨⟨result, t⟩, h, -⟩ := Generation.exists_ok (p := fun _ => true) (x := valueParts (embedded segment)
    ⟨.start, "\"", .operator⟩ (TokenStream.ofSource "me@x.org, a@@b @name@@c@* d *@\">")) (by decide +kernel)
  obtain ⟨pieces, -, hresult, hjoined, -⟩ := value_parts h
  exact ⟨result, t, h, pieces, hresult, hjoined⟩

end Grammar

/-- the values of the attributes of a tag without content -/
def Segment.values : Segment → List (List ValuePart)
  | .emptyElement tag _ => tag.attributes.map (·.values)
  | _ => []

/-- the text of a part that is no expression -/
def ValuePart.text? : ValuePart → Option String
  | .text s => some s
  | .inline _ => none

/-- an `@@` between two letters leaves two texts side by side, and a space between them where there is an expression -/
theorem escape_splits_text :
    (∃ t, Template.parse "<p class=\"a@@b\"/>" = .ok t ∧
      (t.segments.flatMap Segment.values).map (·.map ValuePart.text?) = [[some "a", some "@b"]]) ∧
    ∃ view, compile .default "<p class=\"a@@b @x\"/>" = .ok view ∧
      view.render 0 (.object [("x", .string "c")]) = .ok "<p class=\"a @b c\"/>" := by
  constructor
  · obtain ⟨t, ht, hv⟩ := Generation.exists_ok (x := Template.parse "<p class=\"a@@b\"/>")
      (p := fun t => (t.segments.flatMap Segment.values).map (·.map ValuePart.text?) == [[some "a", some "@b"]])
      (by decide +kernel)
    exact ⟨t, ht, eq_of_beq hv⟩
  · obtain ⟨view, hview, hr⟩ := Generation.exists_ok (x := compile .default "<p class=\"a@@b @x\"/>")
      (p := fun view => (view.render 0 (.object [("x", .string "c")])).toOption == some "<p class=\"a @b c\"/>")
      (by decide +kernel)
    refine ⟨view, hview, ?_⟩
    cases hx : view.render 0 (.object [("x", .string "c")]) with
    | ok html => rw [hx] at hr; exact congrArg Except.ok (Option.some.inj (eq_of_beq hr))
    | error e => rw [hx] at hr; cases hr

end TemplateView
