/-
Markup is reproduced. Where a source embeds nothing but inline expressions, and none in the value of an attribute, its
program writes out its text as it stands and emits each expression in its place: `markup_reproduced`. The expressions are
all those of the template's nodes (`codes_strands`), and the texts are what its tree holds as markup between them. A source
without an `@` renders as itself.
-/
import TemplateView.Proofs.Generation.Inventory
import TemplateView.Proofs.Grammar.Plain
import TemplateView.Proofs.View.Hosts

namespace TemplateView

open Generation Grammar

/-! ## Inline expressions of a template -/

/-- the expression of an inline segment -/
def Segment.inlineExpression? : Segment → Option Expression
  | .inline i => some i.expression
  | _ => none

/-- the inline expressions that stand among some nodes -/
def inlineExpressions (nodes : List Segment) : List Expression := nodes.filterMap Segment.inlineExpression?

/-- the strands of a start tag are texts -/
theorem codes_tag {tag : Tag} {ps : List Strand} (h : tag.strands? = some ps) : Strand.codes ps = [] := by
  have htexts (texts : List String) : Strand.codes (texts.map .text) = [] := by
    induction texts with
    | nil => rfl
    | cons text texts ih => exact ih
  simp only [Tag.strands?, Option.bind_eq_bind, Option.bind_eq_some_iff, Option.pure_def, Option.some.injEq] at h
  obtain ⟨texts, -, rfl⟩ := h
  rw [Strand.codes_append, Strand.codes_append, htexts]
  rfl

mutual

/-- the expressions among the strands of a segment are those of its nodes -/
theorem codes_strands : ∀ {s : Segment} {ps : List Strand}, s.strands? = some ps →
    Strand.codes ps = inlineExpressions s.nodes
  | .element tag children close, _, h => by
    simp only [Segment.strands?, Option.bind_eq_bind, Option.bind_eq_some_iff, Option.pure_def, Option.some.injEq] at h
    obtain ⟨head, hh, content, hc, rfl⟩ := h
    rw [Strand.codes_append, Strand.codes_append, Strand.codes_append, codes_tag hh, codes_strandsAll hc, Segment.nodes]
    exact List.append_nil _
  | .emptyElement tag .slash, _, h | .emptyElement tag .void, _, h => by
    simp only [Segment.strands?, Option.bind_eq_bind, Option.bind_eq_some_iff, Option.pure_def, Option.some.injEq] at h
    obtain ⟨head, hh, rfl⟩ := h
    rw [Strand.codes_append, codes_tag hh]
    rfl
  | .text _, _, h | .htmlComment .., _, h | .docType .., _, h | .inline _, _, h => by
    cases h
    rfl

theorem codes_strandsAll : ∀ {ss : List Segment} {ps : List Strand}, Segment.strandsAll? ss = some ps →
    Strand.codes ps = inlineExpressions (Segment.nodesAll ss)
  | [], _, h => by
    cases h
    rfl
  | s :: ss, _, h => by
    simp only [Segment.strandsAll?, Option.bind_eq_bind, Option.bind_eq_some_iff, Option.pure_def, Option.some.injEq] at h
    obtain ⟨ps, hps, qs, hqs, rfl⟩ := h
    rw [Strand.codes_append, codes_strands hps, codes_strandsAll hqs, Segment.nodesAll]
    exact List.filterMap_append.symm

end

/-- the code of a span is a source of its own, with one inline expression -/
theorem Span.Of.parse {casing : Casing} {names : Names} {source : String} {s : Span} {x : Expression}
    (h : s.Of casing names (tokensFrom .start source.toList) x) : (∃ tail, s.code = "@" ++ tail) ∧
      ∃ y, x.Same y ∧ Template.parse s.code = .ok ⟨[.inline ⟨y, ""⟩]⟩ ∧
        (names.naming casing).expression y = .ok s.value := by
  obtain ⟨before, code, after, ht, hc, ⟨hmark, ha⟩, hx⟩ := h
  have hproper : ∀ c ∈ code, c.Proper := by
    intro c hm
    refine proper_tokensFrom .start source.toList c ?_
    rw [ht]
    simp [hm]
  -- cut out of the source, the code has the same tokens
  rw [List.append_assoc] at ht
  obtain ⟨_, es, -, -, ⟨q, hq⟩, -⟩ := tokensFrom_cut ht
  obtain ⟨cs, _, -, htext, -, hsame⟩ := tokensFrom_cut hq
  have hcode : s.code.toList = cs := by rw [hc, htext, String.toList_ofList]
  obtain ⟨y, hxy, hdoc⟩ := ha hproper _ (Position.start.after cs) (hsame .start)
  have hparse : Template.parse s.code = .ok ⟨[.inline ⟨y, ""⟩]⟩ := by
    refine parseAs_eq_ok.2 ⟨⟨[], Position.start.after cs⟩, ?_⟩
    rw [TokenStream.ofSource, hcode]
    exact hdoc
  refine ⟨?_, y, hxy, hparse, ?_⟩
  · obtain ⟨mark, rest, rfl, hd⟩ := hmark
    exact ⟨textOf rest, by rw [hc, textOf_cons, (hproper mark (by simp)).mark hd]⟩
  · rw [← (names.naming casing).expression_same hxy]
    exact hx

/-- a source that is one inline expression emits its value, and does nothing else -/
theorem compile_inline {options : Options} {code : String} {x : Expression} {value : Expr}
    (hp : Template.parse code = .ok ⟨[.inline ⟨x, ""⟩]⟩)
    (hx : (Names.empty.naming options.casing).expression x = .ok value) :
    ∃ v, compile options code = .ok v ∧ v.program = [.emit value] := by
  obtain ⟨g, hg, hprogram⟩ := generate_inline hx
  refine ⟨g.view (Template.inventory ⟨[.inline ⟨x, ""⟩]⟩) options.maxCallDepth, ?_, hprogram⟩
  unfold compile
  rw [hp]
  simp only [hg]

/-- a span holds an inline expression: its code is one from the `@` on, and is compiled alone to what the span emits -/
structure Span.Holds (options : Options) (s : Span) (x : Expression) : Prop where
  marked : ∃ tail, s.code = "@" ++ tail
  /-- up to its positions, which are others in a source of its own -/
  parsed : ∃ y, x.Same y ∧ Template.parse s.code = .ok ⟨[.inline ⟨y, ""⟩]⟩
  compiled : ∃ v, compile options s.code = .ok v ∧ v.program = [.emit s.value]

theorem Span.Of.holds {options : Options} {source : String} {s : Span} {x : Expression}
    (h : s.Of options.casing .empty (tokensFrom .start source.toList) x) : s.Holds options x := by
  obtain ⟨hmark, y, hxy, hparse, hvalue⟩ := h.parse
  exact ⟨hmark, ⟨y, hxy, hparse⟩, compile_inline hparse hvalue⟩

/-- a weave is the text and the inline expressions of a template by turns, none of them left out and none added -/
structure Weave.Of (options : Options) (t : Template) (w : Weave) : Prop where
  /-- the texts are what the tree holds as markup between the expressions -/
  texts : (Segment.strandsAll? t.segments).map Strand.texts = some w.texts
  spans : List.Forall₂ (Span.Holds options) w.spans (inlineExpressions t.nodes)

/-! ## Sources without an `@` -/

/-- a text renders as itself -/
theorem run_textOps (env : Surroundings) (initial : Table Value) (s : String) :
    (textOps s).run env initial = .ok s := by
  by_cases hs : s = ""
  · subst hs
    rfl
  · have hops : textOps s = [.text s] := by simp [textOps, hs]
    rw [hops, Program.run, Op.execAll, Op.exec]
    show Except.ok ("" ++ s) = _
    rw [String.empty_append]

/-- a weave without an `@` in its source is all text -/
theorem Weave.program_of_unmarked {options : Options} {w : Weave} {xs : List Expression} (hn : '@' ∉ w.source.toList)
    (h : List.Forall₂ (Span.Holds options) w.spans xs) : w.program = textOps w.source := by
  have hspans : w.spans = [] := by
    cases hs : w.spans with
    | nil => rfl
    | cons c cs =>
      rw [hs] at h
      cases h with
      | cons hc _ =>
        obtain ⟨tail, hc⟩ := hc.marked
        refine absurd ?_ hn
        simp [Weave.source, hs, Span.source, hc]
  simp [Weave.program, Weave.source, hspans]

namespace View

variable {options : Options} {source : String} {view : View}

/-- a compiled source of plain markup and its program are woven of its template -/
theorem exists_weave_of_plain (h : compile options source = .ok view) (hp : PlainSource source) :
    ∃ (t : Template) (w : Weave), Template.parse source = .ok t ∧ w.Of options t ∧ w.source = source ∧
      view.program = w.program := by
  obtain ⟨t, ht⟩ := hp
  obtain ⟨t', ht', hof, -⟩ := compile_of h
  obtain rfl : t = t' := Except.ok.inj ((parse_of_plain ht).symm.trans ht')
  obtain ⟨r, hr, hprogram⟩ := hof.program
  obtain ⟨ps, hps, hspells⟩ := plain_written ht
  obtain ⟨w, hw, htexts, hspans, hpack⟩ := exists_weave hspells (lowered_strandsAll hps hr).2
  rw [codes_strandsAll hps] at hspans
  refine ⟨t, w, ht', ⟨?_, hspans.imp fun _ _ => Span.Of.holds⟩, ?_, hprogram.trans hpack⟩
  · rw [hps, htexts]
    rfl
  · rw [hw, textOf_tokensFrom, String.ofList_toList]

/-- a compiled source without an `@` is one text, or none -/
theorem program_of_unmarked (h : compile options source = .ok view) (hn : '@' ∉ source.toList) :
    view.program = textOps source := by
  obtain ⟨t, ht, -⟩ := compile_of h
  obtain ⟨_, w, -, hw, hsource, hprogram⟩ := exists_weave_of_plain h ⟨t, plain_of_parse hn ht⟩
  calc view.program
    _ = w.program := hprogram
    _ = textOps w.source := Weave.program_of_unmarked (hsource ▸ hn) hw.spans
    _ = textOps source := by rw [hsource]

/-- it renders as itself -/
theorem renderWith_of_unmarked (h : compile options source = .ok view) (hn : '@' ∉ source.toList)
    (hosts : List (String × Host)) (steps : Nat) (model : Json) (context : Context) :
    (view.registerAll hosts).renderWith steps model context = .ok source := by
  rw [renderWith_registerAll, program_of_unmarked h hn, run_textOps]

/-- **Markup is reproduced.** A compiled source of plain markup is the text and the inline expressions of its template by
turns, and its program is the same: a text operation for each text, an emission for each inline expression, of the value
that its code has when compiled alone. In particular a source without an `@` is one text, or none, and renders as itself. -/
theorem markup_reproduced (h : compile options source = .ok view) :
    (PlainSource source → ∃ (t : Template) (w : Weave), Template.parse source = .ok t ∧ w.Of options t ∧
      w.source = source ∧ view.program = w.program) ∧
    ('@' ∉ source.toList → view.program = textOps source ∧
      ∀ (hosts : List (String × Host)) (steps : Nat) (model : Json) (context : Context),
        (view.registerAll hosts).renderWith steps model context = .ok source) :=
  ⟨exists_weave_of_plain h, fun hn => ⟨program_of_unmarked h hn, renderWith_of_unmarked h hn⟩⟩

/-- two inline expressions, and an `@` in an address -/
def greeting : String := "<p id='a'>Hi @name, me@x <br/>@(1 + n)!</p>"

theorem markup_reproduced_greeting :
    (∃ (view : View) (t : Template) (w : Weave), compile .default greeting = .ok view ∧ PlainSource greeting ∧
      Template.parse greeting = .ok t ∧ (inlineExpressions t.nodes).length = 2 ∧
      List.Forall₂ (Span.Holds .default) w.spans (inlineExpressions t.nodes) ∧
      w.texts = ["<p id='a'>Hi ", ", me@x <br/>", "!</p>"] ∧ w.source = greeting ∧ view.program = w.program) ∧
    ∃ view, compile .default "<hr> !" = .ok view ∧ ∀ model, view.renderWith 0 model .empty = .ok "<hr> !" := by
  obtain ⟨view, h, -⟩ := exists_ok (x := compile .default greeting) (p := fun _ => true) (by decide +kernel)
  obtain ⟨t', ht', -⟩ := exists_ok (x := Template.parseAs plainSegment greeting) (p := fun _ => true) (by decide +kernel)
  obtain ⟨t, w, ht, hw, hsource, hprogram⟩ := (markup_reproduced h).1 ⟨t', ht'⟩
  obtain ⟨t₂, ht₂, hv⟩ := exists_ok (x := Template.parse greeting) (p := fun t => decide
    ((Segment.strandsAll? t.segments).map Strand.texts = some ["<p id='a'>Hi ", ", me@x <br/>", "!</p>"] ∧
      (inlineExpressions t.nodes).length = 2)) (by decide +kernel)
  obtain rfl : t₂ = t := Except.ok.inj (ht₂.symm.trans ht)
  obtain ⟨htexts, hlength⟩ := decide_eq_true_iff.1 hv
  refine ⟨⟨view, t₂, w, h, ⟨t', ht'⟩, ht, hlength, hw.spans, ?_, hsource, hprogram⟩, ?_⟩
  · exact Option.some.inj (hw.texts.symm.trans htexts)
  obtain ⟨view, h, -⟩ := exists_ok (x := compile .default "<hr> !") (p := fun _ => true) (by decide +kernel)
  exact ⟨view, h, fun model => ((markup_reproduced h).2 (by decide)).2 [] 0 model .empty⟩

end View

end TemplateView
