/-
Template comments in front of a source. A comment is a segment that generates nothing and declares nothing, and what
follows it is read as it is alone: so the comment can be left out (`comment_transparent`), unless its text starts with
`=`, where it is no comment (`equals_opens_no_comment`).
-/
import TemplateView.Proofs.Generation.Compilation
import TemplateView.Proofs.Grammar.TemplateComments

namespace TemplateView

/-! ## Generation -/

namespace Template

variable (text : String) (rs : List Segment)

theorem generate_comment (casing : Casing) : generate casing ⟨.comment text :: rs⟩ = generate casing ⟨rs⟩ := by
  have hinventory : inventory ⟨.comment text :: rs⟩ = inventory ⟨rs⟩ := rfl
  have hsegments : Generation.segments casing (.comment text :: rs) = Generation.segments casing rs := by
    rw [Generation.segments, Generation.segment]
    rfl
  simp only [generate, hinventory, hsegments]

end Template

/-! ## Parsing -/

namespace Grammar

open TemplateView.Parser

variable {text : String} (rest : String)

/-- a comment is read as a segment of its own in front of what follows -/
theorem parse_templateComment (h : ¬ ['*', '@'] <:+: text.toList) (hs : text.toList.head? ≠ some '=') :
    Option.Rel (fun t t' : Template => Segment.SameAll t.segments (.comment text :: t'.segments))
      (Template.parse (templateCommentText text rest)).toOption (Template.parse rest).toOption := by
  obtain ⟨p, q, r, s, u, htokens⟩ := tokens_templateComment hs rest
  have hproper := proper_tokensFrom q text.toList
  have htext : textOf (tokensFrom q text.toList) = text := by rw [textOf_tokensFrom, String.ofList_toList]
  have hdocument : document (segment .markup) (.ofSource (templateCommentText text rest)) =
      iterate [.comment text] (documentRound (segment .markup))
        ⟨tokensFrom u rest.toList, Position.start.after (templateCommentText text rest).toList⟩ := by
    rw [TokenStream.ofSource, htokens]
    refine document_segment rfl ?_
    rw [segment_templateComment hproper (by rwa [htext]), htext]
  exact parse_behind hdocument

/-- with a `=` behind its star, the comment is no directive -/
theorem parse_starred (hs : text.toList.head? = some '=') : Template.parse (templateCommentText text rest) =
    .error (.grammatical (.unknownDirective ⟨⟨1, 0, 1⟩, "*=", .operator⟩)) := by
  obtain ⟨ts, htokens⟩ := tokens_starred text rest hs
  have hdocument : document (segment .markup) (.ofSource (templateCommentText text rest)) =
      .error (.grammatical (.unknownDirective ⟨⟨1, 0, 1⟩, "*=", .operator⟩)) := by
    rw [TokenStream.ofSource, htokens]
    exact document_error rfl (segment_starred _ _ _ _)
  unfold Template.parse Template.parseAs
  rw [hdocument]

end Grammar

/-! ## Compilation -/

/-- templates that are the same up to positions are compiled to the same view -/
theorem view_toOption_same {t t' : Template} (h : Segment.SameAll t.segments t'.segments) (options : Options) :
    (t.generate options.casing).toOption.map (·.view t.inventory options.maxCallDepth) =
      (t'.generate options.casing).toOption.map (·.view t'.inventory options.maxCallDepth) := by
  have hunplaced : t.unplaced = t'.unplaced := congrArg Template.mk h
  rw [← t.generate_unplaced, ← t.inventory_unplaced, hunplaced, t'.generate_unplaced, t'.inventory_unplaced]

namespace View

/-- **A template comment is transparent, unless it starts with `=`.** Let `text` hold no `*@`. A source that begins with
`@*`, `text` and `*@` compiles under all options exactly if the rest of it compiles alone, and then to the same view: the
same program, helpers, sections and inventory. Where `text` starts with `=`, though, the `*` that opens the comment and
that sign are one operator, and the source is refused, whatever follows, as `*=` opens nothing. -/
theorem comment_transparent {text : String} (h : ¬ ['*', '@'] <:+: text.toList) (options : Options) (rest : String) :
    (text.toList.head? ≠ some '=' →
      (compile options ("@*" ++ text ++ "*@" ++ rest)).toOption = (compile options rest).toOption) ∧
    (text.toList.head? = some '=' → compile options ("@*" ++ text ++ "*@" ++ rest) =
      .error (.source (.grammatical (.unknownDirective ⟨⟨1, 0, 1⟩, "*=", .operator⟩)))) := by
  constructor
  · intro hs
    have hparse := Grammar.parse_templateComment rest h hs
    rw [Grammar.templateCommentText] at hparse
    rw [compile_toOption, compile_toOption]
    generalize (Template.parse ("@*" ++ text ++ "*@" ++ rest)).toOption = commented at hparse
    generalize (Template.parse rest).toOption = alone at hparse
    cases hparse with
    | none => rfl
    | @some t t' hsame =>
      have hcomment := @view_toOption_same t ⟨.comment text :: t'.segments⟩ hsame options
      rw [Template.generate_comment] at hcomment
      exact hcomment
  · intro hs
    have hparse := Grammar.parse_starred rest hs
    rw [Grammar.templateCommentText] at hparse
    unfold compile
    rw [hparse]

/-- a banner of stars with an `@`, a brace and a quote in it, and one of equals signs, in front of an element -/
theorem comment_transparent_banner :
    ∃ view, compile .default ("@*" ++ "*** @if \x7b \" = ***" ++ "*@" ++ "<p>@x</p>") = .ok view ∧
      compile .default "<p>@x</p>" = .ok view ∧
      compile .default ("@*" ++ "=== x ===" ++ "*@" ++ "<p>@x</p>") =
        .error (.source (.grammatical (.unknownDirective ⟨⟨1, 0, 1⟩, "*=", .operator⟩))) := by
  have hfree : ¬ ['*', '@'] <:+: "*** @if \x7b \" = ***".toList := by decide +kernel
  have hsame := (comment_transparent hfree .default "<p>@x</p>").1 (by decide)
  obtain ⟨view, hview, -⟩ := Generation.exists_ok (p := fun _ => true) (x := compile .default "<p>@x</p>")
    (by decide +kernel)
  rw [hview] at hsame
  have hsign : ¬ ['*', '@'] <:+: "=== x ===".toList := by decide +kernel
  refine ⟨view, ?_, hview, (comment_transparent hsign .default "<p>@x</p>").2 (by decide)⟩
  cases hc : compile .default ("@*" ++ "*** @if \x7b \" = ***" ++ "*@" ++ "<p>@x</p>") with
  | ok commented => rw [hc] at hsame; exact congrArg Except.ok (Option.some.inj hsame)
  | error e => rw [hc] at hsame; cases hsame

/-- a comment of a `=` is refused in front of nothing, which compiles -/
theorem equals_opens_no_comment :
    (¬ ['*', '@'] <:+: "=".toList) ∧ (∃ view, compile .default "" = .ok view) ∧
      ∀ view, compile .default ("@*" ++ "=" ++ "*@" ++ "") ≠ .ok view := by
  have hnone : (compile .default ("@*" ++ "=" ++ "*@" ++ "")).toOption.isNone = true := by decide +kernel
  obtain ⟨view, hempty, -⟩ := Generation.exists_ok (p := fun _ => true) (x := compile .default "") (by decide +kernel)
  refine ⟨by decide, ⟨view, hempty⟩, fun view h => ?_⟩
  rw [h] at hnone
  cases hnone

end View

end TemplateView
