/-
Programs of plain markup. A `Weave` is a source and its program side by side: text and inline expressions by turns. The
strands of plain segments, lowered and packed, are the program of a weave (`exists_weave`), and an inline expression on
its own has a program of one operation (`generate_inline`).
-/
import Mathlib.Data.List.Forall2
import TemplateView.Proofs.Generation.Compilation
import TemplateView.Proofs.Grammar.Spelled

namespace TemplateView

/-! ## Weaves -/

/-- an inline expression, from its `@` on, what it is lowered to, and the text behind it -/
structure Span where
  code : String
  value : Expr
  after : String

/-- text and inline expressions by turns -/
structure Weave where
  first : String
  spans : List Span

/-- the texts of a weave, one before its first expression and one behind each -/
def Weave.texts (w : Weave) : List String := w.first :: w.spans.map Span.after

/-- an operation that writes a text, none for no text -/
def textOps (s : String) : Program := if s.isEmpty then [] else [.text s]

def Span.source (s : Span) : String := s.code ++ s.after

def Span.program (s : Span) : Program := .emit s.value :: textOps s.after

/-- what the parts make up -/
def Weave.source (w : Weave) : String := w.first ++ String.join (w.spans.map Span.source)

/-- an operation for each part, texts without characters left out -/
def Weave.program (w : Weave) : Program := textOps w.first ++ w.spans.flatMap Span.program

/-- the weave with more text before it -/
def Weave.before (s : String) (w : Weave) : Weave := ⟨s ++ w.first, w.spans⟩

theorem Weave.source_before (s : String) (w : Weave) : (w.before s).source = s ++ w.source := by
  simp [before, source, String.append_assoc]

/-- the operations do not end in text -/
def Closed (ops : List Op) : Prop := ∀ s, ops.getLast? ≠ some (.text s)

theorem closed_emit (ops : List Op) (value : Expr) : Closed (ops ++ [.emit value]) := by
  intro s
  simp

/-- text joins the text behind closed operations -/
theorem add_text {ops : List Op} (h : Closed ops) (s t : String) :
    Op.add (ops ++ textOps s) (.text t) = ops ++ textOps (s ++ t) := by
  by_cases ht : t = ""
  · subst ht
    simp [Op.add]
  have hadd : Op.add (ops ++ textOps s) (.text t) = Builder.appendText (ops ++ textOps s) t := by
    simp [Op.add, ht]
  rw [hadd]
  by_cases hs : s = ""
  · subst hs
    have hlast : Builder.appendText ops t = ops ++ [.text t] := by
      unfold Builder.appendText
      split
      · next previous hp => exact absurd hp (h previous)
      · rfl
    simp [textOps, ht, hlast]
  · have hst : s ++ t ≠ "" := by simp [String.append_eq_empty_iff, hs]
    simp [textOps, hs, hst, Builder.appendText]

/-! ## Strands as operations -/

/-- the operation of a strand where some names are declared -/
inductive Strand.Lowered (casing : Casing) (names : Names) : Strand → Op → Prop
  | text (s : String) : Strand.Lowered casing names (.text s) (.text s)
  | code {x : Expression} {e : Expr} (h : (names.naming casing).expression x = .ok e) :
    Strand.Lowered casing names (.code x) (.emit e)

/-- a span is an inline expression of the tokens, and what it was lowered to -/
def Span.Of (casing : Casing) (names : Names) (ts : List Token) (s : Span) (x : Expression) : Prop :=
  ∃ before code after, ts = before ++ code ++ after ∧ s.code = textOf code ∧ Grammar.Alone code x ∧
    (names.naming casing).expression x = .ok s.value

theorem Span.Of.right {casing : Casing} {names : Names} {ts : List Token} {s : Span} {x : Expression}
    (h : s.Of casing names ts x) (us : List Token) : s.Of casing names (us ++ ts) x := by
  obtain ⟨before, code, after, rfl, h⟩ := h
  exact ⟨us ++ before, code, after, by simp, h⟩

/-- what tokens spell is a weave of its texts and expressions, with their operations, behind whatever has been written -/
theorem exists_weave_behind {casing : Casing} {names : Names} {ts : List Token} {ps : List Strand} {ops : List Op}
    (hs : Spells ts ps) (hl : List.Forall₂ (Strand.Lowered casing names) ps ops) :
    ∃ w : Weave, w.source = textOf ts ∧ w.texts = Strand.texts ps ∧
      List.Forall₂ (Span.Of casing names ts) w.spans (Strand.codes ps) ∧
      ∀ (done : List Op) (s : String), Closed done → Op.pack (done ++ textOps s) ops = done ++ (w.before s).program := by
  -- `done` ends in no text, so the text `s` behind it is all that a further text can join
  induction hs generalizing ops with
  | nil =>
    cases hl
    refine ⟨⟨"", []⟩, rfl, rfl, .nil, fun done s _ => ?_⟩
    simp [Op.pack, Weave.before, Weave.program]
  | @text used rest text ps hu _ ih =>
    cases hl with
    | cons hop hl =>
      cases hop
      obtain ⟨w, hw, ht, ho, hp⟩ := ih hl
      refine ⟨w.before text, ?_, ?_, ho.imp fun _ _ h => h.right used, fun done s hd => ?_⟩
      · rw [Weave.source_before, hw, ← hu, textOf_append]
      · rw [Strand.texts, ← ht]
        rfl
      · rw [Op.pack, List.foldl_cons, add_text hd, ← Op.pack, hp done _ hd]
        simp [Weave.before, String.append_assoc]
  | @code code rest x ps ha _ ih =>
    cases hl with
    | cons hop hl =>
      cases hop with
      | @code _ e hx =>
        obtain ⟨w, hw, ht, ho, hp⟩ := ih hl
        refine ⟨⟨"", ⟨textOf code, e, w.first⟩ :: w.spans⟩, ?_, ?_, ?_, fun done s hd => ?_⟩
        · rw [textOf_append, ← hw]
          simp [Weave.source, Span.source, String.append_assoc]
        · exact congrArg ("" :: ·) ht
        · exact .cons ⟨[], code, rest, rfl, rfl, ha, hx⟩ (ho.imp fun _ _ h => h.right code)
        · have hemit : Op.add (done ++ textOps s) (.emit e) = (done ++ textOps s ++ [.emit e]) ++ textOps "" := by
            simp [Op.add, textOps]
          rw [Op.pack, List.foldl_cons, hemit, ← Op.pack, hp _ "" (closed_emit _ e)]
          simp [Weave.before, Weave.program, Span.program]

/-- **Strands are woven.** What tokens spell, lowered and packed, is a program woven with their text, of the texts and the
expressions that they spell. -/
theorem exists_weave {casing : Casing} {names : Names} {ts : List Token} {ps : List Strand} {ops : List Op}
    (hs : Spells ts ps) (hl : List.Forall₂ (Strand.Lowered casing names) ps ops) :
    ∃ w : Weave, w.source = textOf ts ∧ w.texts = Strand.texts ps ∧
      List.Forall₂ (Span.Of casing names ts) w.spans (Strand.codes ps) ∧ Op.pack [] ops = w.program := by
  obtain ⟨w, hw, ht, ho, hp⟩ := exists_weave_behind hs hl
  refine ⟨w, hw, ht, ho, ?_⟩
  have h := hp [] "" (by intro s; simp)
  simpa [textOps, Weave.before] using h

/-! ## Plain segments -/

namespace Generation

variable {casing : Casing} {names : Names}

theorem sitedAttribute_plain {a : Attribute} {text : String} (h : a.text? = some text) :
    sitedAttribute casing names a = .ok [.text text] := by
  unfold Attribute.text? at h
  unfold sitedAttribute
  cases hv : a.quote with
  | none =>
    simp only [hv, Option.some.injEq] at h ⊢
    rw [← h]
    rfl
  | some quote =>
    simp only [hv] at h ⊢
    by_cases hi : a.values.any ValuePart.isInline = true
    · simp [hi] at h
    · rw [if_neg hi, Option.some.injEq] at h
      rw [if_neg hi, ← h]
      rfl

theorem sitedAttributes_plain {as : List Attribute} {texts : List String}
    (h : as.mapM Attribute.text? = some texts) : sitedAttributes casing names as = .ok (texts.map .text) := by
  induction as generalizing texts with
  | nil =>
    cases h
    rfl
  | cons a as ih =>
    simp only [List.mapM_cons, Option.bind_eq_bind, Option.bind_eq_some_iff, Option.pure_def, Option.some.injEq] at h
    obtain ⟨text, ha, texts, has, rfl⟩ := h
    rw [sitedAttributes, sitedAttribute_plain ha, ih has]
    rfl

theorem lowered_texts (texts : List String) : List.Forall₂ (Strand.Lowered casing names) (texts.map .text)
    (SitedOp.eraseAll (texts.map (.text : String → SitedOp casing))) := by
  induction texts with
  | nil => exact .nil
  | cons text texts ih => exact .cons (.text text) ih

theorem lowered_tag {tag : Tag} {ps : List Strand} {ops : List (SitedOp casing)} (hp : tag.strands? = some ps)
    (h : sitedTag casing names tag = .ok ops) : List.Forall₂ (Strand.Lowered casing names) ps (SitedOp.eraseAll ops) := by
  simp only [Tag.strands?, Option.bind_eq_bind, Option.bind_eq_some_iff, Option.pure_def, Option.some.injEq] at hp
  obtain ⟨texts, hm, rfl⟩ := hp
  rw [sitedTag, sitedAttributes_plain hm] at h
  cases h
  refine .cons (.text _) ?_
  rw [eraseAll_append]
  exact List.rel_append (lowered_texts texts) (.cons (.text _) .nil)

mutual

/-- a plain segment is lowered strand by strand, and declares nothing -/
theorem lowered_strands {r : List (SitedOp casing) × Names} : ∀ {s : Segment} {ps : List Strand}, s.strands? = some ps →
    sited casing names s = .ok r → r.2 = names ∧ List.Forall₂ (Strand.Lowered casing names) ps (SitedOp.eraseAll r.1)
  | .text s, _, hp, h => by
    cases hp
    cases h
    exact ⟨rfl, .cons (.text s) .nil⟩
  | .element tag children close, _, hp, h => by
    simp only [Segment.strands?, Option.bind_eq_bind, Option.bind_eq_some_iff, Option.pure_def, Option.some.injEq] at hp
    obtain ⟨head, hh, content, hc, rfl⟩ := hp
    simp only [sited, bind_eq_ok] at h
    obtain ⟨start, hs, r', hr, h⟩ := h
    obtain ⟨hn, hl⟩ := lowered_strandsAll hc hr
    cases h
    have hrest : List.Forall₂ (Strand.Lowered casing names)
        (content ++ [.text (close.leading ++ "</" ++ close.name ++ close.inside ++ ">")])
        (SitedOp.eraseAll (r'.1 ++ [.text (endTagText close)])) := by
      rw [eraseAll_append]
      exact List.rel_append hl (.cons (.text _) .nil)
    refine ⟨hn, ?_⟩
    rw [List.append_assoc, List.append_assoc, eraseAll_append]
    exact List.rel_append (lowered_tag hh hs) (.cons (.text _) hrest)
  | .emptyElement tag .slash, _, hp, h | .emptyElement tag .void, _, hp, h => by
    simp only [Segment.strands?, Option.bind_eq_bind, Option.bind_eq_some_iff, Option.pure_def, Option.some.injEq] at hp
    obtain ⟨head, hh, rfl⟩ := hp
    simp only [sited, bind_eq_ok] at h
    obtain ⟨start, hs, h⟩ := h
    cases h
    refine ⟨rfl, ?_⟩
    rw [eraseAll_append]
    exact List.rel_append (lowered_tag hh hs) (.cons (.text _) .nil)
  | .htmlComment leading s, _, hp, h => by
    cases hp
    cases h
    exact ⟨rfl, .cons (.text _) .nil⟩
  | .docType leading s, _, hp, h => by
    cases hp
    cases h
    exact ⟨rfl, .cons (.text _) .nil⟩
  | .inline i, _, hp, h => by
    cases hp
    simp only [sited, bind_eq_ok] at h
    obtain ⟨value, hv, h⟩ := h
    cases h
    exact ⟨rfl, .cons (.text _) (.cons (.code (of_site hv).2) .nil)⟩

theorem lowered_strandsAll {r : List (SitedOp casing) × Names} : ∀ {ss : List Segment} {ps : List Strand},
    Segment.strandsAll? ss = some ps → sitedAll casing names ss = .ok r →
    r.2 = names ∧ List.Forall₂ (Strand.Lowered casing names) ps (SitedOp.eraseAll r.1)
  | [], _, hp, h => by
    cases hp
    cases h
    exact ⟨rfl, .nil⟩
  | s :: ss, _, hp, h => by
    simp only [Segment.strandsAll?, Option.bind_eq_bind, Option.bind_eq_some_iff, Option.pure_def, Option.some.injEq] at hp
    obtain ⟨ps, hps, qs, hqs, rfl⟩ := hp
    simp only [sitedAll, bind_eq_ok] at h
    obtain ⟨r₁, h₁, r₂, h₂, h⟩ := h
    obtain ⟨hn₁, hl₁⟩ := lowered_strands hps h₁
    rw [hn₁] at h₂
    obtain ⟨hn₂, hl₂⟩ := lowered_strandsAll hqs h₂
    cases h
    refine ⟨hn₂, ?_⟩
    rw [eraseAll_append]
    exact List.rel_append hl₁ hl₂

end

/-! ## An inline expression alone -/

mutual

/-- an expression is visited as expressions -/
theorem expression_events : ∀ (e : Expression), ∀ ev ∈ Event.ofExpression e, ∃ x, ev = .expression x
  | .name .., ev, h => by
    rw [Event.ofExpression, List.mem_singleton] at h
    exact ⟨_, h⟩
  | .literal _, ev, h => by
    rw [Event.ofExpression, List.mem_singleton] at h
    exact ⟨_, h⟩
  | .member object _ _, ev, h => by
    rw [Event.ofExpression, List.mem_cons] at h
    exact h.elim (fun h => ⟨_, h⟩) (expression_events object ev)
  | .call callee arguments, ev, h => by
    rw [Event.ofExpression, List.mem_cons, List.mem_append] at h
    exact h.elim (fun h => ⟨_, h⟩) (Or.rec (expression_events callee ev) (expressions_events arguments ev))
  | .index target key, ev, h => by
    rw [Event.ofExpression, List.mem_cons, List.mem_append] at h
    exact h.elim (fun h => ⟨_, h⟩) (Or.rec (expression_events target ev) (expression_events key ev))
  | .array items, ev, h => by
    rw [Event.ofExpression, List.mem_cons] at h
    exact h.elim (fun h => ⟨_, h⟩) (expressions_events items ev)
  | .unary _ _ operand, ev, h => by
    rw [Event.ofExpression, List.mem_cons] at h
    exact h.elim (fun h => ⟨_, h⟩) (expression_events operand ev)
  | .binary left _ right, ev, h => by
    rw [Event.ofExpression, List.mem_cons, List.mem_append] at h
    exact h.elim (fun h => ⟨_, h⟩) (Or.rec (expression_events left ev) (expression_events right ev))
  | .conditional test whenTrue whenFalse, ev, h => by
    rw [Event.ofExpression, List.mem_cons, List.mem_append, List.mem_append] at h
    rcases h with h | (h | h) | h
    · exact ⟨_, h⟩
    · exact expression_events test ev h
    · exact expression_events whenTrue ev h
    · exact expression_events whenFalse ev h

theorem expressions_events : ∀ (es : List Expression), ∀ ev ∈ Event.ofExpressions es, ∃ x, ev = .expression x
  | [], _, h => by
    rw [Event.ofExpressions] at h
    cases h
  | e :: es, ev, h => by
    rw [Event.ofExpressions, List.mem_append] at h
    exact h.elim (expression_events e ev) (expressions_events es ev)

end

/-- an inline expression declares nothing -/
theorem visit_inline (x : Expression) {f : Event → Option String} (hx : ∀ y, f (.expression y) = none)
    (he : ∀ i, f (.enter (.inline i)) = none) (hl : ∀ s, f (.exit s) = none) :
    (Template.visit (fun _ => true) ⟨[.inline ⟨x, ""⟩]⟩).filterMap f = [] := by
  have hv : Template.visit (fun _ => true) ⟨[.inline ⟨x, ""⟩]⟩ =
      .enter (.inline ⟨x, ""⟩) :: (Event.ofExpression x ++ [.exit (.inline ⟨x, ""⟩)]) := by
    simp [Template.visit, Event.ofSegments, Event.ofSegment]
  rw [hv, List.filterMap_eq_nil_iff]
  intro ev hev
  rw [List.mem_cons, List.mem_append, List.mem_singleton] at hev
  rcases hev with rfl | hev | rfl
  · exact he _
  · obtain ⟨y, rfl⟩ := expression_events x ev hev
    exact hx y
  · exact hl _

/-- the program of an inline expression alone emits it, and does nothing else -/
theorem generate_inline {x : Expression} {e : Expr} (h : (Names.empty.naming casing).expression x = .ok e) :
    ∃ g, Template.generate casing ⟨[.inline ⟨x, ""⟩]⟩ = .ok g ∧ g.program = [.emit e] := by
  have hsited : sitedAll casing .empty [.inline ⟨x, ""⟩] = .ok ([.text "", .emit ⟨_, _, e, h⟩], .empty) := by
    rw [sitedAll, sited, site_of_ok h]
    rfl
  have hh : repeats [] ((Template.visit (fun _ => true) ⟨[.inline ⟨x, ""⟩]⟩).filterMap Inventory.declaredHelper?) = [] := by
    rw [visit_inline x (fun _ => rfl) (fun _ => rfl) fun _ => rfl]
    rfl
  have hd : repeats [] ((Template.visit (fun _ => true) ⟨[.inline ⟨x, ""⟩]⟩).filterMap Inventory.declaredSection?) = [] := by
    rw [visit_inline x (fun _ => rfl) (fun _ => rfl) fun _ => rfl]
    rfl
  have hf := Template.generate_follows (t := ⟨[.inline ⟨x, ""⟩]⟩) casing hh hd
  rw [hsited] at hf
  obtain ⟨g, hg, hof⟩ := hf
  exact ⟨g, hg, hof.program⟩

end Generation

end TemplateView
