/-
Every text can be written as a string literal. Quoted as program text quotes it, a text is read and unescaped to itself,
so a source that shows the literal renders the text, as it is or escaped (`text_written`).
-/
import TemplateView.Proofs.Grammar.Quoted
import TemplateView.Proofs.Run.Outcome
import TemplateView.Proofs.View.Reproduction

namespace TemplateView

open Generation Grammar

/-- a program that only emits a value writes its escaped text -/
theorem run_emit {env : Surroundings} {initial : Table Value} {e : Expr} {v : Value}
    (h : ∀ r, e.eval env r = .ok (v, r)) : Program.run env initial [.emit e] = .ok v.escaped := by
  have hemit : Op.execAll env [.emit e] ⟨[initial], "", none⟩ = .ok ((), ⟨[initial], v.escaped, none⟩) := by
    rw [Op.execAll, Execution.bind_run, Op.exec, Execution.bind_run, h]
    show Except.ok ((), (⟨[initial], "" ++ v.escaped, none⟩ : Run)) = _
    rw [String.empty_append]
  show (do let (_, r) ← Op.execAll env [.emit e] ⟨[initial], "", none⟩; return r.html : Except Halt String) = _
  rw [hemit]
  rfl

namespace View

/-- **Every text can be written.** For every text, the text in quotes is a string literal of it: shown as raw markup it
renders exactly the text, and shown as a value it renders the text escaped, whatever the model, the context and the
helpers of the host. -/
theorem text_written (options : Options) (s : String) :
    (∃ view, compile options ("@raw(" ++ quoteString s ++ ")") = .ok view ∧
      ∀ hosts steps model context, (view.registerAll hosts).renderWith steps model context = .ok s) ∧
    ∃ view, compile options ("@(" ++ quoteString s ++ ")") = .ok view ∧
      ∀ hosts steps model context, (view.registerAll hosts).renderWith steps model context = .ok (escapeHtml s) := by
  have hliteral : (Names.empty.naming options.casing).expression (.literal (quoteString s)) =
      .ok (.constant (.string s)) := by
    rw [Naming.expression, literalValue_quoteString]
  constructor
  · obtain ⟨p, hparse⟩ := parse_call (isQuoted_quoteString s)
    have hcall : (Names.empty.naming options.casing).expression (.call (.name "raw" p) [.literal (quoteString s)]) =
        .ok (.callHelper "raw" [.constant (.string s)]) := by
      rw [Naming.expression, Naming.expressions, hliteral]
      rfl
    obtain ⟨view, hview, hprogram⟩ := compile_inline hparse hcall
    refine ⟨view, hview, fun hosts steps model context => ?_⟩
    rw [registerAll_eq]
    show Program.run _ [] view.program = _
    rw [hprogram]
    exact run_emit (v := .raw s) fun _ => rfl
  · obtain ⟨view, hview, hprogram⟩ := compile_inline (parse_parenthesized (isQuoted_quoteString s)) hliteral
    refine ⟨view, hview, fun hosts steps model context => ?_⟩
    rw [registerAll_eq]
    show Program.run _ [] view.program = _
    rw [hprogram]
    exact run_emit (v := .string s) fun _ => rfl

end View

end TemplateView
