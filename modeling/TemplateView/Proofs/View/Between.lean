/-
Constructs between texts. A source of one construct, a block, a statement or a declaration, can stand between any two
texts: what it declares and what it writes is the same there, and the texts are written around it as they are
(`construct_between_texts`).
-/
import TemplateView.Proofs.Grammar.Between
import TemplateView.Proofs.Run.Appends
import TemplateView.Proofs.View.Elements
import TemplateView.Proofs.View.Inert

namespace TemplateView

open Generation

/-! ## Generation -/

namespace Generation

variable {casing : Casing}

theorem sitedAll_texts (names : Names) (texts : List String) :
    sitedAll casing names (texts.map .text) = .ok (texts.map .text, names) := by
  induction texts with
  | nil => rfl
  | cons text texts ih =>
    rw [List.map_cons, sitedAll, sited]
    exact bind_eq_ok.2 ⟨_, rfl, bind_eq_ok.2 ⟨_, ih, rfl⟩⟩

theorem sitedAll_append {names : Names} {ss more : List Segment} {q r : List (SitedOp casing) × Names}
    (hq : sitedAll casing names ss = .ok q) (hr : sitedAll casing q.2 more = .ok r) :
    sitedAll casing names (ss ++ more) = .ok (q.1 ++ r.1, r.2) := by
  induction ss generalizing names q with
  | nil => cases hq; exact hr
  | cons s ss ih =>
    simp only [sitedAll, bind_eq_ok, List.cons_append] at hq ⊢
    obtain ⟨x, hx, y, hy, hq⟩ := hq
    cases hq
    refine ⟨x, hx, _, ih hy hr, ?_⟩
    rw [List.append_assoc]
    rfl

theorem nodesAll_append (ss more : List Segment) :
    Segment.nodesAll (ss ++ more) = Segment.nodesAll ss ++ Segment.nodesAll more := by
  induction ss with
  | nil => rfl
  | cons s ss ih => rw [List.cons_append, Segment.nodesAll, ih, Segment.nodesAll, List.append_assoc]

theorem declarations_texts (texts : List String) : (Segment.nodesAll (texts.map .text)).filterMap declaration? = [] := by
  induction texts with
  | nil => rfl
  | cons text texts ih => exact ih

/-- texts declare no names -/
theorem declaredNames_between (helpers : Bool) (befores behinds : List String) (r : Segment) :
    declaredNames helpers (Segment.nodesAll (befores.map .text ++ ([r] ++ behinds.map .text))) =
      declaredNames helpers (Segment.nodesAll [r]) := by
  rw [nodesAll_append, nodesAll_append, declaredNames, List.filterMap_append, List.filterMap_append,
    declarations_texts, declarations_texts, List.nil_append, List.append_nil]
  rfl

end Generation

namespace Template

variable {casing : Casing} {r : Segment} {g : Generated}

/-- texts around a segment add nothing to the tables, and write themselves around what it writes -/
theorem generate_between (befores behinds : List String) (h : generate casing ⟨[r]⟩ = .ok g) :
    ∃ g', generate casing ⟨befores.map .text ++ r :: behinds.map .text⟩ = .ok g' ∧
      g'.helpers = g.helpers ∧ g'.sections = g.sections ∧
      ∀ env initial, g'.program.run env initial = (g.program.run env initial).map fun html =>
        String.join befores ++ html ++ String.join behinds := by
  obtain ⟨q, hq, hof⟩ := generate_eq h
  have hsited : sitedAll casing .empty (befores.map .text ++ ([r] ++ behinds.map .text)) =
      .ok (befores.map .text ++ (q.1 ++ behinds.map .text), q.2) :=
    sitedAll_append (sitedAll_texts _ befores) (sitedAll_append hq (sitedAll_texts _ behinds))
  have hdeclared : declaredAll (befores.map .text ++ ([r] ++ behinds.map .text)) = declaredAll [r] := by
    rw [declaredAll_append, declaredAll_append, declaredAll_texts, declaredAll_texts, List.nil_append, List.append_nil]
  obtain ⟨g', hg', hof'⟩ := generate_of_nodup (t := ⟨befores.map .text ++ ([r] ++ behinds.map .text)⟩) hsited
    fun helpers => declaredNames_between helpers befores behinds r ▸ nodup_declaredNames h helpers
  refine ⟨g', hg', ?_, ?_, fun env initial => ?_⟩
  · rw [hof'.helpers_eq, hof.helpers_eq, hdeclared]
  · rw [hof'.sections_eq, hof.sections_eq, hdeclared]
  · rw [hof'.program, hof.program, run_between]

/-- segments that are the same up to positions have the same programs -/
theorem generate_same {t t' : Template} (h : Segment.SameAll t.segments t'.segments) (casing : Casing) :
    t.generate casing = t'.generate casing := by
  have hunplaced : t.unplaced = t'.unplaced := congrArg Template.mk h
  rw [← t.generate_unplaced, hunplaced, t'.generate_unplaced]

end Template

/-! ## Views -/

/-- the views of a source that has a template -/
theorem compile_ok_iff {options : Options} {source : String} {t : Template} {v : View}
    (h : Template.parse source = .ok t) : compile options source = .ok v ↔
      ∃ g, t.generate options.casing = .ok g ∧ g.view t.inventory options.maxCallDepth = v := by
  rw [compile, h]
  cases hg : t.generate options.casing <;> simp only [hg, reduceCtorEq, false_and, exists_false, Except.ok.injEq,
    exists_eq_left']

namespace View

variable {v w : View}

/-- what programs can call depends on the helpers of a view and on how deep their calls may nest -/
theorem surroundings_congr (hh : v.helpers = w.helpers) (hd : v.maxCallDepth = w.maxCallDepth) (o : Occasion) :
    v.surroundings o = w.surroundings o := by
  have hcall : v.callWith = w.callWith := by
    unfold callWith
    rw [hh]
  have hinvoke : ∀ left, v.invoke o left = w.invoke o left := by
    intro left
    induction left with
    | zero => funext name f arguments; rw [invoke, invoke, hd]
    | succ left ih => funext name f arguments; rw [invoke, invoke, hcall, ih]
  rw [surroundings, surroundings, hcall, hinvoke, hd]

/-- this stays so when a host adds its helpers -/
theorem surroundings_registerAll_congr (hosts : List (String × Host)) (hh : v.helpers = w.helpers)
    (hd : v.maxCallDepth = w.maxCallDepth) (o : Occasion) :
    (v.registerAll hosts).surroundings o = (w.registerAll hosts).surroundings o := by
  induction hosts generalizing v w with
  | nil => exact surroundings_congr hh hd o
  | cons p hosts ih =>
    exact @ih (v.register p.1 p.2) (w.register p.1 p.2) (congrArg (·.insert p.1 (.host p.2)) hh) hd

/-- **Constructs keep the texts around them.** Let `source` be one construct that compiles, and let two texts without `@`
and `<` stand around it. If the first does not end in a letter or a digit, and the second does not begin with an `else`
that an `if` without a last `else` would take for its own, then the whole compiles. It has the same helpers and sections
as `source`, and with any helpers of a host it renders every model in every context to the first text, what `source`
renders to, and the second text, or ends as `source` does. -/
theorem construct_between_texts {options : Options} {before source behind : String} {r : Segment} {k : View}
    (hbefore : '@' ∉ before.toList ∧ '<' ∉ before.toList) (hends : Grammar.endsAlphanumeric before = false)
    (hbehind : '@' ∉ behind.toList ∧ '<' ∉ behind.toList) (hparse : Template.parse source = .ok ⟨[r]⟩)
    (hr : r.isConstruct = true) (helse : r.isOpen = true → (TokenStream.ofSource behind).opensElse = false)
    (hk : compile options source = .ok k) :
    ∃ v, compile options (before ++ source ++ behind) = .ok v ∧ v.helpers = k.helpers ∧ v.sections = k.sections ∧
      ∀ (hosts : List (String × Host)) (steps : Nat) (model : Json) (context : Context),
        (v.registerAll hosts).renderWith steps model context =
          ((k.registerAll hosts).renderWith steps model context).map fun html => before ++ html ++ behind := by
  obtain ⟨befores, behinds, r', hwhole, rfl, rfl, hsame⟩ := Grammar.parse_between hbefore hends hbehind hparse hr helse
  obtain ⟨g, hg, rfl⟩ := (compile_ok_iff hparse).1 hk
  have hplaced : Segment.SameAll [r] [r'] := congrArg (fun x => [x]) hsame
  rw [@Template.generate_same ⟨[r]⟩ ⟨[r']⟩ hplaced] at hg
  obtain ⟨g', hg', hhelpers, hsections, hprogram⟩ := Template.generate_between befores behinds hg
  have htables : (g'.view (Template.inventory ⟨befores.map .text ++ r' :: behinds.map .text⟩) options.maxCallDepth).helpers =
      (g.view (Template.inventory ⟨[r]⟩) options.maxCallDepth).helpers := by
    rw [Generated.view, Generated.view, hhelpers]
  refine ⟨_, (compile_ok_iff hwhole).2 ⟨g', hg', rfl⟩, htables, hsections, fun hosts steps model context => ?_⟩
  rw [renderWith_registerAll, renderWith_registerAll, surroundings_registerAll_congr hosts htables rfl]
  exact hprogram _ _

/-- an `if` between two texts, the second of which begins with a word that only begins with `else` -/
theorem construct_between_texts_elsewhere : ∃ v k,
    compile .default ("Here: " ++ "@if (Open) \x7b\n  <b>@Name</b>\n\x7d" ++ "\n elsewhere, too") = .ok v ∧
      compile .default "@if (Open) \x7b\n  <b>@Name</b>\n\x7d" = .ok k ∧ v.helpers = k.helpers ∧
      ∀ model, v.renderWith ample model .empty =
        (k.renderWith ample model .empty).map fun html => "Here: " ++ html ++ "\n elsewhere, too" := by
  obtain ⟨⟨segments⟩, hparse, hshape⟩ := exists_ok (x := Template.parse "@if (Open) \x7b\n  <b>@Name</b>\n\x7d")
    (p := fun t => t.segments.length == 1 && t.segments.all (·.isConstruct)) (by decide +kernel)
  simp only [Bool.and_eq_true, beq_iff_eq, List.all_eq_true] at hshape
  obtain ⟨r, rfl⟩ := List.length_eq_one_iff.1 hshape.1
  obtain ⟨k, hk, -⟩ := exists_ok (x := compile .default "@if (Open) \x7b\n  <b>@Name</b>\n\x7d") (p := fun _ => true)
    (by decide +kernel)
  obtain ⟨v, hv, hhelpers, -, hrender⟩ := @construct_between_texts .default "Here: " _ "\n elsewhere, too" r k
    (by decide) (by decide +kernel) (by decide) hparse (hshape.2 r List.mem_cons_self) (fun _ => by decide +kernel) hk
  exact ⟨v, k, hv, hk, hhelpers, fun model => hrender [] ample model .empty⟩

end View

end TemplateView
