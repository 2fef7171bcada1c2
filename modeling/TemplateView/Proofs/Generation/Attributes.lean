/-
Attributes that are written on a condition. An attribute with an expression in its value is lowered to a group of
operations: one that opens it, one for each piece of the value, and one that closes it. `attribute_written` says what the
group does in a run: the expressions are evaluated in order, and then the attribute is written with the texts of its
pieces between spaces, or left out if no piece has text.
-/
import TemplateView.Proofs.Generation.Normal
import TemplateView.Proofs.Run.Alike
import TemplateView.Proofs.Run.Frame
import TemplateView.Proofs.Run.Shape

namespace TemplateView

/-! ## Pieces of a value -/

namespace ValuePart

/-- the expression of a piece -/
def expression? : ValuePart → Option Expression
  | .text _ => none
  | .inline i => some i.expression

/-- the texts that pieces show, given the values of their expressions in order: text without the blanks around it, and
what is written of a value that counts as true; pieces without text are left out -/
def shownTexts : List ValuePart → List Value → List String
  | [], _ => []
  | .text s :: ps, vs => if (Text.trim s).isEmpty then shownTexts ps vs else Text.trim s :: shownTexts ps vs
  | .inline _ :: ps, [] => shownTexts ps []
  | .inline _ :: ps, v :: vs =>
    if v.isTruthy && !v.escaped.isEmpty then v.escaped :: shownTexts ps vs else shownTexts ps vs

end ValuePart

/-- what is written of an attribute, given the values of the expressions in it -/
def Attribute.shown (a : Attribute) (quote : Char) (values : List Value) : String :=
  let texts := ValuePart.shownTexts a.values values
  if texts.isEmpty then ""
  else a.leading ++ a.name ++ a.separator ++ String.singleton quote ++ Text.join " " texts ++ String.singleton quote

/-- the run while an attribute collects its parts -/
def Run.collecting (r : Run) (opening : String) (parts : List String) : Run :=
  { r with pending := some ⟨opening, parts⟩ }

/-- a part is collected if it has text -/
theorem Run.addPart_collecting (r : Run) (opening : String) (parts : List String) (s : String) :
    (r.collecting opening parts).addPart s = r.collecting opening (parts ++ if s.isEmpty then [] else [s]) := by
  unfold Run.addPart
  split
  · rw [List.append_nil]
  · rfl

namespace Generation

variable {casing : Casing} {names : Names} {p : Progress}

/-! ## Lowering -/

/-- whether a computation fails, and for what cause -/
def outcome {ε α : Type} (x : Except ε α) : Except ε Unit := x.map fun _ => ()

theorem outcome_map {ε α β : Type} (x : Except ε α) (f : α → β) : outcome (do return f (← x)) = outcome x := by
  cases x <;> rfl

/-- the pieces of a value are lowered exactly if its expressions are, and fail for the same cause -/
theorem outcome_sitedParts (parts : List ValuePart) :
    outcome (sitedParts casing names parts) =
      outcome ((names.naming casing).expressions (parts.filterMap ValuePart.expression?)) := by
  induction parts with
  | nil => rfl
  | cons part parts ih =>
    cases part with
    | text s => exact (outcome_map (sitedParts casing names parts) _).trans ih
    | inline i =>
      have he : (ValuePart.inline i :: parts).filterMap ValuePart.expression? =
          i.expression :: parts.filterMap ValuePart.expression? := rfl
      rw [he, Naming.expressions, sitedParts, sitedPart]
      cases hx : (names.naming casing).expression i.expression with
      | error c =>
        rw [site_of_error hx]
        rfl
      | ok x =>
        rw [site_of_ok hx]
        exact ((outcome_map (sitedParts casing names parts) _).trans ih).trans (outcome_map _ _).symm

/-- the pieces of a value grow the program by a part each -/
theorem writeParts_grown (parts : List ValuePart) :
    ∀ p : Progress, Follows
      (fun _ (ops : List (SitedOp casing)) p' => Grown casing p p' (SitedOp.eraseAll ops) p.builder.names [])
      (parts.forM (writePart casing)) p (sitedParts casing p.builder.names parts) := by
  induction parts with
  | nil => exact fun p => follows_pure (Grown.refl casing p)
  | cons part parts ih =>
    intro p
    have hpart : Follows (fun _ (op : SitedOp casing) p' => Grown casing p p' [op.erase] p.builder.names [])
        (writePart casing part) p (sitedPart casing p.builder.names part) := by
      cases part with
      | text s => exact follows_ok rfl (grown_push fun _ => rfl)
      | inline i =>
        refine follows_bind (lower_follows i.expression) ?_
        intro _ s _ _ h
        obtain ⟨rfl, rfl⟩ := h
        exact follows_ok rfl (grown_push fun _ => rfl)
    refine follows_bind hpart fun _ op p₁ _ h₁ => ?_
    rw [← h₁.names]
    refine follows_map (ih p₁) fun _ ops p₂ h₂ => ?_
    have h := h₁.trans h₂
    rwa [h₁.names] at h ⊢

/-! ## The group in a run -/

open Execution

/-- what the parts of an attribute do in a run that collects them: the expressions are evaluated in order, and the texts
of the pieces are collected -/
def Collects (env : Surroundings) (parts : List ValuePart) (values : List Expr) (ops : List Op) : Prop :=
  ∀ (o : String) (acc : List String) (r : Run),
    Op.execAll env ops (r.collecting o acc) = (Expr.evalAll env values r).map fun x =>
      ((), x.2.collecting o (acc ++ ValuePart.shownTexts parts x.1))

variable {env : Surroundings} {parts : List ValuePart} {values : List Expr} {ops : List Op}

theorem collects_nil : Collects env [] [] [] := by
  intro o acc r
  show Except.ok ((), r.collecting o acc) = .ok ((), r.collecting o (acc ++ []))
  rw [List.append_nil]

theorem Collects.text (h : Collects env parts values ops) (s : String) :
    Collects env (.text s :: parts) values (.attributePart (.text (Text.trim s)) :: ops) := by
  intro o acc r
  have hacc : ∀ vs, acc ++ ValuePart.shownTexts (.text s :: parts) vs =
      (acc ++ if (Text.trim s).isEmpty then [] else [Text.trim s]) ++ ValuePart.shownTexts parts vs := by
    intro vs
    rw [ValuePart.shownTexts]
    split <;> simp
  show Op.execAll env ops ((r.collecting o acc).addPart (Text.trim s)) = _
  simp only [Run.addPart_collecting, h o _ r, hacc]

theorem Collects.inline (h : Collects env parts values ops) (i : InlineExpression) (value : Expr) :
    Collects env (.inline i :: parts) (value :: values) (.attributePart (.value value) :: ops) := by
  intro o acc r
  have hexec : Op.execAll env (.attributePart (.value value) :: ops) =
      (value.eval env >>= fun v => modify (·.addPart (if v.isTruthy then v.escaped else "")) >>= fun _ =>
        Op.execAll env ops) := by
    rw [Op.execAll, Op.exec, AttributePart.shown]
    simp only [bind_assoc, pure_bind]
  -- the value is the one that the expression has outside the attribute
  rw [hexec, Expr.evalAll, bind_run, bind_run, Expr.onVariables env value (r.collecting o acc) r rfl]
  cases hv : value.eval env r with
  | error e => rfl
  | ok x =>
    obtain ⟨v, r₁⟩ := x
    have hr₁ : r₁.inside (r.collecting o acc) = r₁.collecting o acc := by
      show (⟨r₁.scopes, r.html, _⟩ : Run) = ⟨r₁.scopes, r₁.html, _⟩
      rw [((Expr.onVariables env value).kept hv).1]
      rfl
    have hacc : ∀ vs, acc ++ ValuePart.shownTexts (.inline i :: parts) (v :: vs) =
        (acc ++ if (if v.isTruthy then v.escaped else "").isEmpty then [] else [if v.isTruthy then v.escaped else ""]) ++
          ValuePart.shownTexts parts vs := by
      intro vs
      rw [ValuePart.shownTexts]
      cases v.isTruthy <;> by_cases he : v.escaped = "" <;> simp [he]
    show Op.execAll env ops ((r₁.inside (r.collecting o acc)).addPart _) =
      ((Expr.evalAll env values >>= fun vs => pure (v :: vs)) r₁).map _
    rw [hr₁, Run.addPart_collecting, h o _ r₁, bind_run]
    cases Expr.evalAll env values r₁ with
    | error e => rfl
    | ok y =>
      show Except.ok ((), _) = .ok ((), _)
      rw [hacc]

/-- lowered pieces collect the texts of the pieces -/
theorem collects_sitedParts {parts : List ValuePart} {ops : List (SitedOp casing)}
    (h : sitedParts casing names parts = .ok ops) :
    ∃ values, (names.naming casing).expressions (parts.filterMap ValuePart.expression?) = .ok values ∧
      ∀ env, Collects env parts values (SitedOp.eraseAll ops) := by
  induction parts generalizing ops with
  | nil => cases h; exact ⟨[], rfl, fun _ => collects_nil⟩
  | cons part parts ih =>
    simp only [sitedParts, bind_eq_ok] at h
    obtain ⟨op, hop, more, hmore, ⟨⟩⟩ := h
    obtain ⟨values, hvalues, hrun⟩ := ih hmore
    cases part with
    | text s =>
      cases hop
      exact ⟨values, hvalues, fun env => (hrun env).text s⟩
    | inline i =>
      simp only [sitedPart, bind_eq_ok] at hop
      obtain ⟨value, hv, ⟨⟩⟩ := hop
      have he : (names.naming casing).expression i.expression = .ok value.expr := (of_site hv).2
      refine ⟨value.expr :: values, ?_, fun env => (hrun env).inline i value.expr⟩
      show (names.naming casing).expressions (i.expression :: parts.filterMap ValuePart.expression?) = _
      rw [Naming.expressions, he, hvalues]
      rfl

/-- a group writes the attribute, or nothing, and ends it -/
theorem Collects.group {lowered : List AttributePart} (a : Attribute) (quote : Char)
    (h : Collects env a.values values (lowered.map .attributePart)) (r : Run) :
    Op.execAll env (Op.group (opening a quote) lowered (String.singleton quote)) r =
      (Expr.evalAll env values r).map fun x =>
        ((), { x.2 with html := r.html ++ a.shown quote x.1, pending := none }) := by
  have hexec : Op.execAll env (Op.group (opening a quote) lowered (String.singleton quote)) r =
      (Op.execAll env (lowered.map .attributePart) >>= fun _ => modify (·.closeAttribute (String.singleton quote)))
        (r.collecting (opening a quote) []) := by
    rw [Op.group, Op.execAll, execAll_append, execAll_singleton, Op.exec, Op.exec]
    rfl
  rw [hexec, bind_run, h]
  cases hx : Expr.evalAll env values r with
  | error e => rfl
  | ok x =>
    have hhtml := ((Expr.onVariables_all env values).kept hx).1
    show Except.ok ((), { x.2 with
      html := x.2.html ++ Run.attributeText ⟨opening a quote, [] ++ ValuePart.shownTexts a.values x.1⟩
        (String.singleton quote), pending := none }) = .ok ((), _)
    rw [hhtml]
    rfl

/-- an attribute with an expression grows the program by a group -/
theorem writeAttribute_grown {a : Attribute} {quote : Char} (hq : a.quote = some quote)
    (hi : a.values.any ValuePart.isInline = true) (p : Progress) :
    Follows (fun _ (parts : List (SitedOp casing)) p' => Grown casing p p'
        (.beginAttribute (opening a quote) :: (SitedOp.eraseAll parts ++ [.endAttribute (String.singleton quote)]))
        p.builder.names [])
      (writeAttribute casing a) p (sitedParts casing p.builder.names a.values) := by
  have h₀ : Grown casing p _ [.beginAttribute (opening a quote)] p.builder.names [] :=
    grown_push fun _ => rfl
  have key : Follows (fun _ (parts : List (SitedOp casing)) p' => Grown casing p p'
        (.beginAttribute (opening a quote) :: (SitedOp.eraseAll parts ++ [.endAttribute (String.singleton quote)]))
        p.builder.names [])
      (writeAttribute casing a) p (sitedParts casing p.builder.names a.values >>= fun parts => pure parts) := by
    unfold writeAttribute
    simp only [hq, if_pos hi]
    refine follows_left (build_run _ _) ?_
    rw [← h₀.names]
    refine follows_bind (writeParts_grown a.values _) fun _ parts p₁ _ h₁ => ?_
    refine follows_ok (build_run _ _) ?_
    have h₂ : Grown casing p₁ _ [.endAttribute (String.singleton quote)] p₁.builder.names [] := grown_push fun _ => rfl
    have h := h₀.trans (h₁.trans h₂)
    rwa [h₁.names] at h
  rwa [bind_pure] at key

/-- **Attributes are written on a condition.** Wherever an attribute with an expression in its value is lowered, it
fails as the first of its expressions that fails, or else adds operations of its own behind those there. In a run
outside an attribute, whatever its surroundings, these evaluate the expressions once each in order and end early where
one of them does; then they add the attribute with its texts between spaces, or nothing if there is no text. They leave
the scopes at their depth and no attribute open. -/
theorem attribute_written (casing : Casing) (p : Progress) {a : Attribute} {quote : Char} (hq : a.quote = some quote)
    (hi : a.values.any ValuePart.isInline = true) :
    match (p.builder.names.naming casing).expressions (a.values.filterMap ValuePart.expression?) with
    | .error cause => ∃ e, writeAttribute casing a p = .error e ∧ e.cause = cause
    | .ok values => ∃ p' ops, writeAttribute casing a p = .ok ((), p') ∧
        p'.builder.written = p.builder.written ++ ops ∧
        ∀ (env : Surroundings) (r : Run), r.pending = none →
          Op.execAll env ops r =
            (Expr.evalAll env values r).map (fun x => ((), { x.2 with html := r.html ++ a.shown quote x.1 })) ∧
          ∀ r', Op.execAll env ops r = .ok ((), r') → r'.scopes.length = r.scopes.length ∧ r'.pending = none := by
  have hf := @writeAttribute_grown casing _ _ hq hi p
  have ho := @outcome_sitedParts casing p.builder.names a.values
  unfold Follows at hf
  cases hs : sitedParts casing p.builder.names a.values with
  | error c =>
    rw [hs] at hf ho
    cases hx : (p.builder.names.naming casing).expressions (a.values.filterMap ValuePart.expression?) with
    | ok values => rw [hx] at ho; cases ho
    | error c' =>
      rw [hx] at ho
      cases ho
      cases hw : writeAttribute casing a p with
      | ok x => rw [hw] at hf; exact hf.elim
      | error e => rw [hw] at hf; exact ⟨e, rfl, hf⟩
  | ok parts =>
    rw [hs] at hf
    obtain ⟨values, hvalues, hc⟩ := collects_sitedParts hs
    obtain ⟨lowered, hl, -⟩ := erase_sitedParts hs
    rw [hvalues]
    cases hw : writeAttribute casing a p with
    | error e => rw [hw] at hf; exact hf.elim
    | ok x =>
      rw [hw] at hf
      have hg : Grown casing p x.2 (.beginAttribute (opening a quote) ::
        (SitedOp.eraseAll parts ++ [.endAttribute (String.singleton quote)])) p.builder.names [] := hf
      rw [hl] at hg
      refine ⟨x.2, Op.group (opening a quote) lowered (String.singleton quote), rfl, ?_, fun env r hr => ?_⟩
      · rw [hg.written]
        exact Op.pack_of_no_text (fun o ho => (Op.not_isText_of_mem_group ho).1) _
      have hrun := (hl ▸ hc env).group a quote r
      refine ⟨?_, fun r' hr' => ⟨(ends_ok (below_execAll env _ r) hr').2, ?_⟩⟩
      · rw [hrun]
        cases hx : Expr.evalAll env values r with
        | error e => rfl
        | ok y =>
          have hp := ((Expr.onVariables_all env values).kept hx).2.trans hr
          show Except.ok ((), _) = .ok ((), _)
          rw [← hp]
      · rw [hrun] at hr'
        cases hx : Expr.evalAll env values r with
        | error e => rw [hx] at hr'; cases hr'
        | ok y => rw [hx] at hr'; cases hr'; rfl

/-- a class of its own, and one that a helper chooses -/
def classes : Attribute :=
  ⟨" ", "class", "=", some '"',
    [.text "card ", .inline ⟨.call (.name "tone" ⟨16, 0, 16⟩) [.name "level" ⟨21, 0, 21⟩], ""⟩]⟩

/-- whatever else the helper does, its text is the attribute's second one -/
theorem attribute_written_classes :
    classes.quote = some '"' ∧ classes.values.any ValuePart.isInline = true ∧
      ∃ p', writeAttribute .identity classes .start = .ok ((), p') ∧
        ∀ (env : Surroundings) (r : Run), r.pending = none →
          env.call "tone" [env.model.property "level"] = .ok (.string "dark") →
          Op.execAll env p'.builder.written r = .ok ((), { r with html := r.html ++ " class=\"card dark\"" }) := by
  refine ⟨rfl, by decide, ?_⟩
  have h := attribute_written .identity .start (a := classes) rfl (by decide)
  obtain ⟨p', ops, hw, ho, hrun⟩ := h
  refine ⟨p', hw, fun env r hr hc => ?_⟩
  have hv : Expr.evalAll env [.callHelper "tone" [.model "level"]] r = .ok ([.string "dark"], r) := by
    show (StateT.lift (env.call "tone" [env.model.property "level"]) >>= fun v => pure [v] : Execution (List Value)) r = _
    rw [hc]
    rfl
  have hs : classes.shown '"' [.string "dark"] = " class=\"card dark\"" := by decide +kernel
  rw [ho]
  refine ((hrun env r hr).1.trans (congrArg _ hv)).trans ?_
  rw [← hs]
  rfl

end Generation

end TemplateView
