/-
The text of an element. Every element with a text that opens nothing compiles to the text of its source, unless the text
begins with `>` or `=`, where the start tag does not end and the source is refused (`element_text_free`).
-/
import TemplateView.Proofs.Grammar.Elements
import TemplateView.Proofs.View.Refusals
import TemplateView.Proofs.View.Reproduction

namespace TemplateView

open Generation Grammar

/-! ## Generation -/

theorem declaredAll_texts (texts : List String) : declaredAll (texts.map .text) = [] := by
  induction texts with
  | nil => rfl
  | cons text texts ih =>
    rw [List.map_cons, declaredAll, ih]
    rfl

theorem occurrences_texts (names : Names) (texts : List String) : Occurrence.ofSegments names (texts.map .text) = [] := by
  induction texts with
  | nil => rfl
  | cons text texts ih =>
    rw [List.map_cons, Occurrence.ofSegments]
    exact ih

/-- an element with texts in it has no faults -/
theorem Template.not_fault_element (name : String) (texts : List String) (e : EndTag) (c : GenerationCause) :
    ¬ Template.Fault ⟨[.element ⟨"", name, [], ""⟩ (texts.map .text) e]⟩ c := by
  have hdeclared : declaredAll [.element ⟨"", name, [], ""⟩ (texts.map .text) e] = [] := by
    rw [declaredAll, declared, declaredAll_texts]
    rfl
  have hoccurrences : Occurrence.ofSegments .empty [.element ⟨"", name, [], ""⟩ (texts.map .text) e] = [] := by
    rw [Occurrence.ofSegments, Occurrence.ofSegment, occurrences_texts]
    rfl
  intro h
  cases h with
  | duplicateHelper h =>
    rw [Template.helpers, hdeclared] at h
    cases h
  | duplicateSection h =>
    rw [Template.sections, hdeclared] at h
    cases h
  | occurrence ho h =>
    rw [Template.occurrences, hoccurrences] at ho
    cases ho

/-- a source whose template has no faults compiles -/
theorem compile_of_not_fault {source : String} {t : Template} (h : Template.parse source = .ok t) (hf : ∀ c, ¬ t.Fault c)
    (options : Options) : ∃ view, compile options source = .ok view := by
  cases hg : t.generate options.casing with
  | error e => exact absurd (Template.fault_of_generate (Grammar.whole_parse h) hg) (hf _)
  | ok g =>
    refine ⟨g.view t.inventory options.maxCallDepth, ?_⟩
    unfold compile
    rw [h]
    simp only [hg]

namespace View

/-! ## Elements -/

theorem unmarked_element {name text : String} (hn : isToken .alphanumeric name = true) (ht : '@' ∉ text.toList) :
    '@' ∉ (elementText name text).toList := by
  have hname : '@' ∉ name.toList := (isWord_of_isToken hn).not_mem (by decide +kernel) (by decide +kernel)
  rw [toList_elementText]
  simp [hname, ht]

/-- **The text of an element is free, but for how it begins.** An element of one name that is no void element, with a text
without `@` and `<` in it, compiles and renders as its source does for every model, context and set of host helpers, as
long as the text does not begin with `>` or `=`. With one of these it does not compile: the `>` of the start tag and what
follows it are one operator, and the parser finds no end of the tag. -/
theorem element_text_free {name text : String} (hn : isToken .alphanumeric name = true)
    (hv : isVoidElement name = false) (ht : '@' ∉ text.toList ∧ '<' ∉ text.toList) (options : Options) :
    (text.toList.head? ≠ some '>' → text.toList.head? ≠ some '=' →
      ∃ view, compile options ("<" ++ name ++ ">" ++ text ++ "</" ++ name ++ ">") = .ok view ∧
        ∀ (hosts : List (String × Host)) (steps : Nat) (model : Json) (context : Context),
          (view.registerAll hosts).renderWith steps model context =
            .ok ("<" ++ name ++ ">" ++ text ++ "</" ++ name ++ ">")) ∧
    (text.toList.head? = some '>' ∨ text.toList.head? = some '=' →
      ∃ e, compile options ("<" ++ name ++ ">" ++ text ++ "</" ++ name ++ ">") = .error (.source (.lexical e))) := by
  constructor
  · intro hclose hsign
    obtain ⟨texts, e, hparse⟩ := parse_element hn hv ht (not_or.2 ⟨hclose, hsign⟩)
    obtain ⟨view, hview⟩ := compile_of_not_fault hparse (Template.not_fault_element name texts e) options
    exact ⟨view, hview, renderWith_of_unmarked hview (unmarked_element hn ht.1)⟩
  · intro hg
    obtain ⟨e, hparse⟩ := parse_element_glued hn hg
    refine ⟨e, ?_⟩
    unfold compile
    rw [elementText] at hparse
    rw [hparse]

/-- a comparison, a quotation and an equals sign, all behind a digit; and the comparison alone -/
theorem element_text_free_comparison :
    (∃ view, compile .default ("<" ++ "p" ++ ">" ++ "1 >= 0 / '>'= " ++ "</" ++ "p" ++ ">") = .ok view ∧
      ∀ model, view.renderWith 0 model .empty = .ok ("<" ++ "p" ++ ">" ++ "1 >= 0 / '>'= " ++ "</" ++ "p" ++ ">")) ∧
    ∃ e, compile .default ("<" ++ "p" ++ ">" ++ ">= 0" ++ "</" ++ "p" ++ ">") = .error (.source (.lexical e)) := by
  have hp : isToken .alphanumeric "p" = true := by decide +kernel
  have hv : isVoidElement "p" = false := by decide
  obtain ⟨view, h, hr⟩ := (@element_text_free "p" "1 >= 0 / '>'= " hp hv (by decide) .default).1 (by decide) (by decide)
  exact ⟨⟨view, h, fun model => hr [] 0 model .empty⟩,
    (@element_text_free "p" ">= 0" hp hv (by decide) .default).2 (.inl (by decide))⟩

/-- a paragraph that holds an equals sign does not compile -/
theorem sign_closes_no_tag :
    isToken .alphanumeric "p" = true ∧ isVoidElement "p" = false ∧ '@' ∉ "=".toList ∧ '<' ∉ "=".toList ∧
      ∀ view, compile .default ("<" ++ "p" ++ ">" ++ "=" ++ "</" ++ "p" ++ ">") ≠ .ok view := by
  have hnone : (compile .default ("<" ++ "p" ++ ">" ++ "=" ++ "</" ++ "p" ++ ">")).toOption.isNone = true := by
    decide +kernel
  refine ⟨by decide +kernel, by decide, by decide, by decide, fun view h => ?_⟩
  rw [h] at hnone
  cases hnone

end View

end TemplateView
