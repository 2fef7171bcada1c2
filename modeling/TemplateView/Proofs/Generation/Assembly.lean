/-
The generator works as `sited` says. `Follows` compares a step of the generator with a computation that may fail for the
same causes: both fail, and for one cause, or both succeed. `Grown` says what a step has added to the generator's
progress. The main statements are `segment_follows` for a segment at any point of a generation, the names of `sited`
being the scopes of the builder at that point, and `generate_eq` for whole templates.

In particular no text is ever written while code is generated: `sited` knows no such failure.
-/
import TemplateView.Proofs.Generation.Sited

namespace TemplateView

/-! ## What a builder has written -/

/-- the operations of the innermost body, with the text that is still held back -/
def Builder.written (b : Builder) : List Op := b.flush.frame

namespace Builder

theorem appendText_append (ops : List Op) (s t : String) :
    appendText (appendText ops s) t = appendText ops (s ++ t) := by
  unfold appendText
  cases h : ops.getLast? with
  | none => simp
  | some op => cases op <;> simp [String.append_assoc]

theorem written_eq (b : Builder) :
    b.written = if b.pending.isEmpty then b.frame else appendText b.frame b.pending := by
  unfold written flush
  split <;> rfl

theorem flush_of_empty {b : Builder} (h : b.pending.isEmpty = true) : b.flush = b := by
  simp [flush, h]

theorem pending_flush (b : Builder) : b.flush.pending = "" := by
  unfold flush
  split
  · next h => exact String.isEmpty_iff.1 h
  · rfl

@[simp] theorem outer_flush (b : Builder) : b.flush.outer = b.outer := by unfold flush; split <;> rfl

@[simp] theorem scope_flush (b : Builder) : b.flush.scope = b.scope := by unfold flush; split <;> rfl

@[simp] theorem outerScopes_flush (b : Builder) : b.flush.outerScopes = b.outerScopes := by
  unfold flush; split <;> rfl

theorem names_flush (b : Builder) : b.flush.names = b.names := by simp [names]

@[simp] theorem flush_flush (b : Builder) : b.flush.flush = b.flush :=
  flush_of_empty (by rw [pending_flush]; rfl)

@[simp] theorem written_startMarkup (b : Builder) : b.startMarkup.written = b.written := by
  rw [written_eq, written_eq]; rfl

@[simp] theorem written_startCode (b : Builder) : b.startCode.written = b.written := by
  rw [written_eq]
  show (if b.flush.pending.isEmpty then b.flush.frame else appendText b.flush.frame b.flush.pending) = _
  rw [pending_flush]
  rfl

@[simp] theorem written_push (b : Builder) (op : Op) : (b.push op).written = b.written ++ [op] := by
  rw [written_eq]
  show (if b.flush.pending.isEmpty then b.flush.frame ++ [op] else _) = _
  rw [pending_flush]
  rfl

/-- held back or not, text joins the text before it -/
theorem written_pending (b : Builder) (s : String) :
    ({ b with pending := b.pending ++ s } : Builder).written = Op.add b.written (.text s) := by
  rw [written_eq, written_eq]
  simp only [Op.add]
  by_cases hs : s = ""
  · subst hs; simp
  by_cases hb : b.pending = ""
  · simp [hb, hs]
  · have hne : b.pending ++ s ≠ "" := by simp [String.append_eq_empty_iff, hb]
    simp [hb, hs, hne, appendText_append]

theorem names_withLocals (locals : List String) : (withLocals locals).names = Names.ofLocals locals := by
  have key : ∀ (ls : List String) (b : Builder), (ls.foldl declare b).names = ls.foldl Names.declare b.names := by
    intro ls
    induction ls with
    | nil => exact fun b => rfl
    | cons l ls ih => exact fun b => ih (b.declare l)
  exact key locals empty

theorem written_withLocals (locals : List String) :
    (withLocals locals).written = [] ∧ (withLocals locals).outer = [] := by
  have key : ∀ (ls : List String) (b : Builder),
      (ls.foldl declare b).written = b.written ∧ (ls.foldl declare b).outer = b.outer := by
    intro ls
    induction ls with
    | nil => exact fun b => ⟨rfl, rfl⟩
    | cons l ls ih =>
      intro b
      obtain ⟨h1, h2⟩ := ih (b.declare l)
      refine ⟨h1.trans ?_, h2⟩
      rw [written_eq, written_eq]; rfl
  exact key locals empty

theorem finish_eq_written {b : Builder} (h : b.outer = []) : b.finish = b.written := by
  simp [finish, allOps, written, h]

end Builder

namespace Generation

/-! ## Growth -/

/-- helpers or sections entered into a table, later ones in place of earlier ones of the same name -/
def enter (casing : Casing) (t : Table Fragment) (ds : List Declared) : Table Fragment :=
  ds.foldl (fun t d => t.insert d.name (d.fragment casing)) t

/-- what a step of the generator may change: it adds operations to the innermost body, declares names in the innermost
scope, and enters declarations into the tables -/
structure Grown (casing : Casing) (p p' : Progress) (ops : List Op) (after : Names) (ds : List Declared) : Prop where
  written : p'.builder.written = Op.pack p.builder.written ops
  outer : p'.builder.outer = p.builder.outer
  names : p'.builder.names = after
  outerNames : after.outer = p.builder.names.outer
  helpers : p'.helpers = enter casing p.helpers (ds.filter (·.isHelper))
  sections : p'.sections = enter casing p.sections (ds.filter (!·.isHelper))

variable {casing : Casing} {p p₁ p₂ : Progress} {names names₁ names₂ : Names}

theorem Grown.refl (casing : Casing) (p : Progress) : Grown casing p p [] p.builder.names [] :=
  ⟨rfl, rfl, rfl, rfl, rfl, rfl⟩

theorem Grown.trans {ops₁ ops₂ : List Op} {ds₁ ds₂ : List Declared} (h₁ : Grown casing p p₁ ops₁ names₁ ds₁)
    (h₂ : Grown casing p₁ p₂ ops₂ names₂ ds₂) : Grown casing p p₂ (ops₁ ++ ops₂) names₂ (ds₁ ++ ds₂) where
  written := by rw [h₂.written, h₁.written, Op.pack, Op.pack, Op.pack, List.foldl_append]
  outer := h₂.outer.trans h₁.outer
  names := h₂.names
  outerNames := by rw [h₂.outerNames, h₁.names, h₁.outerNames]
  helpers := by rw [h₂.helpers, h₁.helpers, enter, enter, enter, List.filter_append, List.foldl_append]
  sections := by rw [h₂.sections, h₁.sections, enter, enter, enter, List.filter_append, List.foldl_append]

theorem grown_startMarkup : Grown casing p { p with builder := p.builder.startMarkup } [] p.builder.names [] :=
  ⟨p.builder.written_startMarkup, rfl, rfl, rfl, rfl, rfl⟩

theorem grown_startCode : Grown casing p { p with builder := p.builder.startCode } [] p.builder.names [] where
  written := p.builder.written_startCode
  outer := p.builder.outer_flush
  names := p.builder.names_flush
  outerNames := rfl
  helpers := rfl
  sections := rfl

/-- an operation that is no text -/
theorem grown_push {op : Op} (h : ∀ ops, Op.add ops op = ops ++ [op]) :
    Grown casing p { p with builder := p.builder.push op } [op] p.builder.names [] where
  written := (p.builder.written_push op).trans (h _).symm
  outer := p.builder.outer_flush
  names := p.builder.names_flush
  outerNames := rfl
  helpers := rfl
  sections := rfl

theorem Grown.push {op : Op} {ds : List Declared} (h : Grown casing p p₁ [] names ds)
    (hop : ∀ ops, Op.add ops op = ops ++ [op]) :
    Grown casing p { p₁ with builder := p₁.builder.push op } [op] names ds := by
  have h' := h.trans (grown_push hop)
  rwa [h.names, List.append_nil] at h'

/-- text -/
theorem grown_hold (s : String) :
    Grown casing p { p with builder := { p.builder with pending := p.builder.pending ++ s } } [.text s]
      p.builder.names [] :=
  ⟨p.builder.written_pending s, rfl, rfl, rfl, rfl, rfl⟩

theorem grown_declare (name : String) :
    Grown casing p { p with builder := p.builder.declare name } [] (p.builder.names.declare name) [] where
  written := by rw [Builder.written_eq, Builder.written_eq]; rfl
  outer := rfl
  names := rfl
  outerNames := rfl
  helpers := rfl
  sections := rfl

/-! ## Following -/

/-- the step and the computation fail for the same cause, or both succeed with related results -/
def Follows {α β : Type} (Q : α → β → Progress → Prop) (m : Generate α) (p : Progress) (x : Except GenerationCause β) :
    Prop :=
  match x, m p with
  | .ok b, .ok (a, p') => Q a b p'
  | .error c, .error e => e.cause = c
  | .ok _, .error _ => False
  | .error _, .ok _ => False

section

variable {α β γ δ : Type} {Q : α → β → Progress → Prop} {R : γ → δ → Progress → Prop}

theorem generate_bind (m : Generate α) (f : α → Generate γ) (p : Progress) :
    (m >>= f) p =
      match m p with
      | .ok (a, p') => f a p'
      | .error e => .error e := by
  show (do let (a, s) ← m p; f a s : Except GenerationError (γ × Progress)) = _
  cases m p <;> rfl

theorem follows_pure {a : α} {b : β} (h : Q a b p) : Follows Q (pure a) p (pure b) := h

theorem follows_bind {m : Generate α} {f : α → Generate γ} {x : Except GenerationCause β}
    {g : β → Except GenerationCause δ} (hm : Follows Q m p x)
    (hf : ∀ a b p', x = .ok b → Q a b p' → Follows R (f a) p' (g b)) : Follows R (m >>= f) p (x >>= g) := by
  unfold Follows at hm
  cases x with
  | ok b =>
    show Follows R (m >>= f) p (g b)
    unfold Follows
    rw [generate_bind]
    cases h : m p with
    | ok r => rw [h] at hm; exact hf r.1 b r.2 rfl hm
    | error e => rw [h] at hm; exact hm.elim
  | error c =>
    show Follows R (m >>= f) p (.error c)
    unfold Follows
    rw [generate_bind]
    cases h : m p with
    | ok r => rw [h] at hm; exact hm.elim
    | error e => rw [h] at hm; exact hm

/-- a step that cannot fail has no counterpart -/
theorem follows_left {m : Generate α} {f : α → Generate γ} {x : Except GenerationCause δ} {a : α} {p' : Progress}
    (hm : m p = .ok (a, p')) (h : Follows R (f a) p' x) : Follows R (m >>= f) p x := by
  unfold Follows at h ⊢
  rw [generate_bind, hm]
  exact h

theorem follows_ok {m : Generate α} {a : α} {b : β} {p' : Progress} (hm : m p = .ok (a, p')) (h : Q a b p') :
    Follows Q m p (pure b) := by
  unfold Follows
  rw [hm]
  exact h

theorem follows_map {g : β → δ} {Q' : α → δ → Progress → Prop} {m : Generate α} {x : Except GenerationCause β}
    (h : Follows Q m p x) (hQ : ∀ a b p', Q a b p' → Q' a (g b) p') : Follows Q' m p (x >>= fun b => pure (g b)) := by
  cases x with
  | ok b =>
    show Follows Q' m p (.ok (g b))
    unfold Follows at h ⊢
    cases hm : m p with
    | ok r => rw [hm] at h; exact hQ _ _ _ h
    | error e => rw [hm] at h; exact h
  | error c =>
    show Follows Q' m p (.error c)
    unfold Follows at h ⊢
    cases hm : m p with
    | ok r => rw [hm] at h; exact h
    | error e => rw [hm] at h; exact h

end

/-! ## Text and expressions -/

theorem progress_run (p : Progress) : (get : Generate Progress) p = .ok (p, p) := rfl

theorem build_run (f : Builder → Builder) (p : Progress) : build f p = .ok ((), { p with builder := f p.builder }) :=
  rfl

/-- text is written wherever markup is -/
theorem write_run (s : String) (h : p.builder.mode = .markup) :
    write s p = .ok ((), { p with builder := { p.builder with pending := p.builder.pending ++ s } }) := by
  have hl : p.builder.literal s = .ok { p.builder with pending := p.builder.pending ++ s } := by
    simp only [Builder.literal, h]
  rw [write, generate_bind, progress_run]
  simp only [hl]
  rfl

theorem markup_run (s : String) (p : Progress) :
    markup s p =
      .ok ((), { p with builder := { p.builder.startMarkup with pending := p.builder.pending ++ s } }) := by
  rw [markup, generate_bind, build_run]
  exact write_run s rfl

theorem grown_markup (s : String) :
    Grown casing p { p with builder := { p.builder.startMarkup with pending := p.builder.pending ++ s } } [.text s]
      p.builder.names [] :=
  grown_startMarkup.trans (grown_hold s)

theorem site_of_ok {source : Expression} {e : Expr} (h : (names.naming casing).expression source = .ok e) :
    site casing names source = .ok ⟨names, source, e, h⟩ := by
  unfold site
  split
  · next e' h' => cases h.symm.trans h'; rfl
  · next c h' => cases h.symm.trans h'

theorem site_of_error {source : Expression} {c : GenerationCause} (h : (names.naming casing).expression source = .error c) :
    site casing names source = .error c := by
  unfold site
  split
  · next e h' => cases h.symm.trans h'
  · next c' h' => cases h.symm.trans h'; rfl

/-- an expression is lowered with the names that the builder has declared at this point -/
theorem lower_follows (source : Expression) :
    Follows (fun e (s : Site casing) p' => e = s.expr ∧ p = p') (lower casing (·.expression source)) p
      (site casing p.builder.names source) := by
  have hn : Naming.expression ⟨casing, p.builder.isDeclared⟩ source = (p.builder.names.naming casing).expression source :=
    rfl
  have hl : lower casing (·.expression source) p =
      match Naming.expression ⟨casing, p.builder.isDeclared⟩ source with
      | .ok a => .ok (a, p)
      | .error cause => .error (p.builder.error cause) := by
    rw [lower, generate_bind, progress_run]
    cases h : Naming.expression ⟨casing, p.builder.isDeclared⟩ source with
    | ok a => simp only [h]; rfl
    | error c => simp only [h]; rfl
  unfold Follows
  rw [hl, hn]
  cases h : (p.builder.names.naming casing).expression source with
  | ok e => rw [site_of_ok h]; exact ⟨rfl, rfl⟩
  | error c => rw [site_of_error h]; rfl

theorem lowerOption_follows (e : Option Expression) :
    Follows (fun e (s : Option (Site casing)) p' => e = s.map Site.expr ∧ p = p') (lowerOption casing e) p
      (siteOption casing p.builder.names e) := by
  cases e with
  | none => exact ⟨rfl, rfl⟩
  | some e =>
    refine follows_bind (lower_follows e) ?_
    intro _ s p' _ h
    obtain ⟨rfl, rfl⟩ := h
    exact ⟨rfl, rfl⟩

/-! ## Tags -/

/-- growth while markup is written, as in a tag, where nothing is declared -/
def Tagged (casing : Casing) (p p' : Progress) (ops : List Op) : Prop :=
  Grown casing p p' ops p.builder.names [] ∧ p'.builder.mode = .markup

theorem Tagged.trans {ops₁ ops₂ : List Op} (h₁ : Tagged casing p p₁ ops₁) (h₂ : Tagged casing p₁ p₂ ops₂) :
    Tagged casing p p₂ (ops₁ ++ ops₂) :=
  ⟨by have h := h₁.1.trans h₂.1; rwa [h₁.1.names] at h, h₂.2⟩

theorem tagged_push {op : Op} (hm : p.builder.mode = .markup) (h : ∀ ops, Op.add ops op = ops ++ [op]) :
    Tagged casing p { p with builder := p.builder.push op } [op] := by
  refine ⟨grown_push h, ?_⟩
  show p.builder.flush.mode = .markup
  unfold Builder.flush
  split <;> exact hm

theorem tagged_hold (s : String) (hm : p.builder.mode = .markup) :
    Tagged casing p { p with builder := { p.builder with pending := p.builder.pending ++ s } } [.text s] :=
  ⟨grown_hold s, hm⟩

theorem eraseAll_append (ops more : List (SitedOp casing)) :
    SitedOp.eraseAll (ops ++ more) = SitedOp.eraseAll ops ++ SitedOp.eraseAll more := by
  induction ops with
  | nil => rfl
  | cons op ops ih => simp [SitedOp.eraseAll, ih]

theorem writePart_follows (part : ValuePart) (hm : p.builder.mode = .markup) :
    Follows (fun _ (op : SitedOp casing) p' => Tagged casing p p' [op.erase]) (writePart casing part) p
      (sitedPart casing p.builder.names part) := by
  cases part with
  | text s => exact follows_ok rfl (tagged_push hm fun _ => rfl)
  | inline i =>
    refine follows_bind (lower_follows i.expression) ?_
    intro _ s _ _ h
    obtain ⟨rfl, rfl⟩ := h
    exact follows_ok rfl (tagged_push hm fun _ => rfl)

theorem writeParts_follows (parts : List ValuePart) :
    ∀ {p : Progress}, p.builder.mode = .markup →
      Follows (fun _ (ops : List (SitedOp casing)) p' => Tagged casing p p' (SitedOp.eraseAll ops))
        (parts.forM (writePart casing)) p (sitedParts casing p.builder.names parts) := by
  induction parts with
  | nil => exact fun hm => follows_pure ⟨Grown.refl casing _, hm⟩
  | cons part parts ih =>
    intro p hm
    refine follows_bind (writePart_follows part hm) fun _ op p₁ _ h₁ => ?_
    rw [← h₁.1.names]
    exact follows_map (ih h₁.2) fun _ _ _ h₂ => h₁.trans h₂

theorem writeAttribute_follows (a : Attribute) (hm : p.builder.mode = .markup) :
    Follows (fun _ (ops : List (SitedOp casing)) p' => Tagged casing p p' (SitedOp.eraseAll ops))
      (writeAttribute casing a) p (sitedAttribute casing p.builder.names a) := by
  unfold writeAttribute sitedAttribute
  cases a.quote with
  | none => exact follows_ok (write_run _ hm) (tagged_hold _ hm)
  | some quote =>
    simp only
    by_cases hv : a.values.any ValuePart.isInline = true
    · rw [if_pos hv, if_pos hv]
      have h₀ : Tagged casing p _ [.beginAttribute (opening a quote)] := tagged_push hm fun _ => rfl
      refine follows_left (build_run _ _) ?_
      rw [← h₀.1.names]
      refine follows_bind (writeParts_follows a.values h₀.2) fun _ ops p₁ _ h₁ => ?_
      refine follows_ok (build_run _ _) ?_
      have h₂ : Tagged casing p₁ _ [.endAttribute (String.singleton quote)] := tagged_push h₁.2 fun _ => rfl
      have h := h₀.trans (h₁.trans h₂)
      rwa [show SitedOp.eraseAll (.beginAttribute (opening a quote) :: (ops ++ [.endAttribute (String.singleton quote)]))
        = [.beginAttribute (opening a quote)] ++ (SitedOp.eraseAll ops ++ [.endAttribute (String.singleton quote)])
        by simp [SitedOp.eraseAll, SitedOp.erase, eraseAll_append]]
    · rw [if_neg hv, if_neg hv]
      exact follows_ok (write_run _ hm) (tagged_hold _ hm)

theorem writeAttributes_follows (as : List Attribute) :
    ∀ {p : Progress}, p.builder.mode = .markup →
      Follows (fun _ (ops : List (SitedOp casing)) p' => Tagged casing p p' (SitedOp.eraseAll ops))
        (as.forM (writeAttribute casing)) p (sitedAttributes casing p.builder.names as) := by
  induction as with
  | nil => exact fun hm => follows_pure ⟨Grown.refl casing _, hm⟩
  | cons a as ih =>
    intro p hm
    refine follows_bind (writeAttribute_follows a hm) fun _ ops p₁ _ h₁ => ?_
    rw [← h₁.1.names]
    exact follows_map (ih h₁.2) fun _ more _ h₂ => by rw [eraseAll_append]; exact h₁.trans h₂

theorem startTag_follows (tag : Tag) (p : Progress) :
    Follows (fun _ (ops : List (SitedOp casing)) p' => Tagged casing p p' (SitedOp.eraseAll ops))
      (startTag casing tag) p (sitedTag casing p.builder.names tag) := by
  have h₀ : Tagged casing p _ [.text (tag.leading ++ "<" ++ tag.name)] := ⟨grown_markup _, rfl⟩
  refine follows_left (markup_run _ _) ?_
  rw [← h₀.1.names]
  refine follows_bind (writeAttributes_follows tag.attributes h₀.2) fun _ ops p₁ _ h₁ => ?_
  refine follows_ok (write_run _ h₁.2) ?_
  have h := h₀.trans (h₁.trans (tagged_hold tag.beforeEnd h₁.2))
  rwa [show SitedOp.eraseAll (.text (tag.leading ++ "<" ++ tag.name) :: (ops ++ [.text tag.beforeEnd]))
    = [.text (tag.leading ++ "<" ++ tag.name)] ++ (SitedOp.eraseAll ops ++ [.text tag.beforeEnd])
    by simp [SitedOp.eraseAll, SitedOp.erase, eraseAll_append]]

/-! ## Bodies -/

/-- the result of a step is what a direct lowering gives, and the builder's scopes are the names it is given -/
def Lowers (casing : Casing) (ds : List Declared) (m : Generate Unit) (p : Progress)
    (x : Except GenerationCause (List (SitedOp casing) × Names)) : Prop :=
  Follows (fun _ r p' => Grown casing p p' (SitedOp.eraseAll r.1) r.2 ds) m p x

theorem closeBody_spec {b : Builder} {f : List Op} {fs : List (List Op)} {s : List String} {ss : List (List String)}
    (ho : b.outer = f :: fs) (hs : b.outerScopes = s :: ss) :
    b.closeBody.1 = b.written ∧ b.closeBody.2.written = f ∧ b.closeBody.2.outer = fs ∧
      b.closeBody.2.names = ⟨s, ss⟩ := by
  have hp : b.flush.popScope = { b.flush with scope := s, outerScopes := ss } := by
    simp [Builder.popScope, hs]
  have hc : b.closeBody = (b.flush.frame, { b.flush with scope := s, outerScopes := ss, frame := f, outer := fs }) := by
    simp [Builder.closeBody, hp, ho]
  rw [hc]
  refine ⟨rfl, ?_, rfl, rfl⟩
  rw [Builder.written_eq]
  simp [Builder.pending_flush]

/-- a body starts without operations, with a scope of its own -/
def opened (item : Option String) (p : Progress) : Progress :=
  { p with builder := item.elim p.builder.openBody p.builder.openBody.declare }

theorem names_opened (item : Option String) (p : Progress) :
    (opened item p).builder.names = item.elim p.builder.names.nest p.builder.names.nest.declare := by
  have h : p.builder.openBody.names = p.builder.names.nest := by
    show (⟨[], p.builder.flush.scope :: p.builder.flush.outerScopes⟩ : Names) = _
    simp [Names.nest, Builder.names]
  cases item with
  | none => exact h
  | some name => exact congrArg (Names.declare · name) h

theorem written_opened (item : Option String) (p : Progress) : (opened item p).builder.written = [] := by
  have h : p.builder.openBody.pending = "" := p.builder.pending_flush
  rw [Builder.written_eq]
  cases item with
  | none => exact if_pos (by show p.builder.openBody.pending.isEmpty = true; rw [h]; rfl)
  | some name => exact if_pos (by show p.builder.openBody.pending.isEmpty = true; rw [h]; rfl)

theorem outer_opened (item : Option String) (p : Progress) :
    (opened item p).builder.outer = p.builder.written :: p.builder.outer ∧
      (opened item p).builder.outerScopes = p.builder.scope :: p.builder.outerScopes := by
  have h : p.builder.openBody.outer = p.builder.written :: p.builder.outer ∧
      p.builder.openBody.outerScopes = p.builder.scope :: p.builder.outerScopes :=
    ⟨congrArg (p.builder.written :: ·) p.builder.outer_flush, by
      show p.builder.flush.scope :: p.builder.flush.outerScopes = _
      simp⟩
  cases item with
  | none => exact h
  | some name => exact h

/-- a body leaves the builder as it was, with its scopes and the text before it -/
theorem body_follows {item : Option String} {step : Generate Unit} {ds : List Declared}
    {x : Except GenerationCause (List (SitedOp casing) × Names)}
    (h : Lowers casing ds step (opened item p) x) :
    Follows (fun ops r p' => ops = Op.pack [] (SitedOp.eraseAll r.1) ∧ Grown casing p p' [] p.builder.names ds)
      (body item step) p x := by
  have hb : body item step p = (step >>= fun _ => build .startCode >>= fun _ => modifyGet fun p =>
      ((p.builder.closeBody).1, { p with builder := (p.builder.closeBody).2 })) (opened item p) := by
    cases item <;> rfl
  have key : Follows (fun ops (r : List (SitedOp casing) × Names) p' =>
      ops = Op.pack [] (SitedOp.eraseAll r.1) ∧ Grown casing p p' [] p.builder.names ds)
      (step >>= fun _ => build .startCode >>= fun _ => modifyGet fun p =>
        ((p.builder.closeBody).1, { p with builder := (p.builder.closeBody).2 })) (opened item p) (x >>= pure) := by
    refine follows_bind h fun _ r p₁ _ h₁ => ?_
    have h₂ := h₁.trans grown_startCode
    have ho := h₂.outer.trans (outer_opened item p).1
    have hs : p₁.builder.startCode.outerScopes = p.builder.scope :: p.builder.outerScopes := by
      have hn := congrArg Names.outer h₂.names
      exact hn.trans (h₂.outerNames.trans (outer_opened item p).2)
    obtain ⟨c₁, c₂, c₃, c₄⟩ := closeBody_spec ho hs
    refine follows_ok (a := (p₁.builder.startCode.closeBody).1) rfl ⟨?_, ⟨c₂, c₃, c₄, rfl, ?_, ?_⟩⟩
    · rw [c₁]
      have hw := h₂.written
      rw [written_opened, List.append_nil] at hw
      exact hw
    · have hh := h₂.helpers
      rwa [List.append_nil] at hh
    · have hh := h₂.sections
      rwa [List.append_nil] at hh
  unfold Follows at key ⊢
  rw [hb]
  cases x <;> exact key

/-- a fragment is generated apart, and the program under construction stays as it was -/
theorem fragment_follows {parameters : List String} {step : Generate Unit} {ds : List Declared}
    {x : Except GenerationCause (List (SitedOp casing) × Names)}
    (h : Lowers casing ds step { p with builder := .withLocals parameters } x) :
    Follows (fun f r p' => f = ⟨parameters, SitedOp.program r.1⟩ ∧ Grown casing p p' [] p.builder.names ds)
      (fragment parameters step) p x := by
  have hf : fragment parameters step p = (step >>= fun _ => get >>= fun q => build (fun _ => p.builder) >>= fun _ =>
      pure (⟨parameters, q.builder.finish⟩ : Fragment)) { p with builder := .withLocals parameters } := rfl
  have key : Follows (fun f (r : List (SitedOp casing) × Names) p' =>
      f = ⟨parameters, SitedOp.program r.1⟩ ∧ Grown casing p p' [] p.builder.names ds)
      (step >>= fun _ => get >>= fun q => build (fun _ => p.builder) >>= fun _ =>
        pure (⟨parameters, q.builder.finish⟩ : Fragment)) { p with builder := .withLocals parameters } (x >>= pure) := by
    refine follows_bind h fun _ r p₁ _ h₁ => ?_
    obtain ⟨hw, ho⟩ := Builder.written_withLocals parameters
    refine follows_ok (show _ = Except.ok (⟨parameters, p₁.builder.finish⟩, { p₁ with builder := p.builder }) from rfl)
      ⟨?_, ⟨rfl, rfl, rfl, rfl, h₁.helpers, h₁.sections⟩⟩
    rw [Builder.finish_eq_written (h₁.outer.trans ho), h₁.written, hw]
    rfl
  unfold Follows at key ⊢
  rw [hf]
  cases x <;> exact key

/-! ## Segments -/

/-- the declared body, once lowered, is the fragment of its declaration -/
theorem fragment_of_sited {d : Declared} {r : List (SitedOp casing) × Names}
    (h : sitedAll casing (.ofLocals d.parameters) d.body = .ok r) :
    d.fragment casing = ⟨d.parameters, SitedOp.program r.1⟩ := by
  rw [Declared.fragment, Declared.sited, h]

theorem Grown.helper {d : Declared} {f : Fragment} {ds : List Declared} (hd : d.isHelper = true)
    (hf : f = d.fragment casing) (h : Grown casing p p₁ [] p.builder.names ds) :
    Grown casing p { p₁ with helpers := p₁.helpers.insert d.name f } [] p.builder.names (ds ++ [d]) where
  written := h.written
  outer := h.outer
  names := h.names
  outerNames := h.outerNames
  helpers := by simp [h.helpers, enter, hd, hf]
  sections := by simp [h.sections, hd]

theorem Grown.section {d : Declared} {f : Fragment} {ds : List Declared} (hd : d.isHelper = false)
    (hf : f = d.fragment casing) (h : Grown casing p p₁ [] p.builder.names ds) :
    Grown casing p { p₁ with sections := p₁.sections.insert d.name f } [] p.builder.names (ds ++ [d]) where
  written := h.written
  outer := h.outer
  names := h.names
  outerNames := h.outerNames
  helpers := by simp [h.helpers, hd]
  sections := by simp [h.sections, enter, hd, hf]

/-- a scope around a step is left as the step found the builder -/
theorem Grown.scoped {after : Names} {ds : List Declared} {q : Progress}
    (h : Grown casing { p with builder := p.builder.pushScope } q [] after ds) :
    Grown casing p { q with builder := q.builder.popScope } [] p.builder.names ds := by
  have hs : q.builder.outerScopes = p.builder.scope :: p.builder.outerScopes :=
    (congrArg Names.outer h.names).trans h.outerNames
  have hb : q.builder.popScope = { q.builder with scope := p.builder.scope, outerScopes := p.builder.outerScopes } := by
    simp [Builder.popScope, hs]
  rw [hb]
  refine ⟨?_, h.outer, rfl, rfl, h.helpers, h.sections⟩
  have hw := h.written
  rw [Builder.written_eq] at hw ⊢
  rw [Builder.written_eq] at hw ⊢
  exact hw

/-- code is generated from here on; the text before it is put into the body -/
theorem follows_code {δ : Type} {R : Unit → δ → Progress → Prop} {m : Unit → Generate Unit}
    {x : Except GenerationCause δ} (casing : Casing)
    (h : ∀ q, Grown casing p q [] p.builder.names [] → Follows R (m ()) q x) :
    Follows R (build .startCode >>= m) p x :=
  follows_left (build_run _ _) (h _ grown_startCode)

mutual

/-- **The generator lowers directly.** At any point of a generation, a segment adds the operations that `sited` gives
under the names in the builder's scopes, and those names change as in `sited`. -/
theorem segment_follows (casing : Casing) (p : Progress) :
    ∀ s : Segment, Lowers casing (declared s) (segment casing s) p (sited casing p.builder.names s)
  | .text s => by
    rw [segment, sited]
    exact follows_ok (markup_run _ _) (grown_markup s)
  | .element tag children close => by
    rw [segment, sited]
    refine follows_bind (startTag_follows tag p) fun _ head p₁ _ h₁ => ?_
    refine follows_left (write_run _ h₁.2) ?_
    have h₂ := h₁.trans (tagged_hold ">" h₁.2)
    rw [← h₂.1.names]
    refine follows_bind (segments_follows casing _ children) ?_
    intro _ x p₃ _ h₃
    obtain ⟨ops, names⟩ := x
    refine follows_ok (markup_run _ _) ?_
    have h := h₂.1.trans (h₃.trans (grown_markup (endTagText close)))
    rw [h₃.names] at h
    simpa [SitedOp.eraseAll, SitedOp.erase, eraseAll_append, declared] using h
  | .emptyElement tag closing => by
    rw [segment, sited]
    refine follows_bind (startTag_follows tag p) fun _ head p₁ _ h₁ => ?_
    refine follows_ok (write_run _ h₁.2) ?_
    have h := (h₁.trans (tagged_hold (closingText closing) h₁.2)).1
    simpa [SitedOp.eraseAll, SitedOp.erase, eraseAll_append, declared] using h
  | .htmlComment leading s => by
    rw [segment, sited]
    exact follows_ok (markup_run _ _) (grown_markup _)
  | .docType leading d => by
    rw [segment, sited]
    exact follows_ok (markup_run _ _) (grown_markup _)
  | .inline i => by
    rw [segment, sited]
    refine follows_left (markup_run _ _) ?_
    have h₁ : Grown casing p _ [.text i.leading] p.builder.names [] := grown_markup i.leading
    rw [← h₁.names]
    refine follows_bind (lower_follows i.expression) ?_
    intro _ value _ _ hq
    obtain ⟨rfl, rfl⟩ := hq
    exact follows_ok (build_run _ _) (h₁.trans (grown_push fun _ => rfl))
  | .block ss => by
    rw [segment, sited, declared]
    exact segments_follows casing p ss
  | .declaration d => by
    rw [segment, sited]
    refine follows_code casing fun q h₁ => ?_
    rw [← h₁.names]
    refine follows_bind (lowerOption_follows d.init) ?_
    intro _ init _ _ hq
    obtain ⟨rfl, rfl⟩ := hq
    refine follows_left (build_run _ _) (follows_ok (build_run _ _) ?_)
    exact h₁.trans ((grown_declare d.name).trans (grown_push fun _ => rfl))
  | .branch test ss otherwise => by
    rw [segment, sited]
    refine follows_code casing fun q h₁ => ?_
    rw [← h₁.names]
    refine follows_bind (lower_follows test) ?_
    intro _ test _ _ hq
    obtain ⟨rfl, rfl⟩ := hq
    have hb := segments_follows casing (opened none q) ss
    rw [names_opened] at hb
    refine follows_bind (body_follows hb) ?_
    intro _ x p₂ _ hq
    obtain ⟨whenTrue, _⟩ := x
    obtain ⟨rfl, h₂⟩ := hq
    simp only
    rw [← h₂.names]
    refine follows_bind (alternative_follows casing p₂ otherwise) ?_
    intro _ whenFalse p₃ _ hq
    obtain ⟨rfl, h₃⟩ := hq
    refine follows_ok (build_run _ _) ?_
    rw [h₂.names]
    exact h₁.trans (Grown.push (h₂.trans (h₂.names ▸ h₃)) fun _ => rfl)
  | .loop counter condition iteration ss => by
    rw [segment, sited]
    refine follows_code casing fun q h₁ => ?_
    rw [← h₁.names]
    refine follows_left (build_run _ _) ?_
    refine follows_bind (lowerOption_follows (p := { q with builder := q.builder.pushScope }) counter.init) ?_
    intro _ init _ _ hq
    obtain ⟨rfl, rfl⟩ := hq
    refine follows_left (build_run _ _) ?_
    have h₂ : Grown casing { q with builder := q.builder.pushScope } _ [] _ [] := grown_declare counter.name
    rw [show q.builder.names.nest.declare counter.name = _ from h₂.names.symm]
    refine follows_bind (lower_follows condition) ?_
    intro _ condition _ _ hq
    obtain ⟨rfl, rfl⟩ := hq
    refine follows_bind (lower_follows iteration) ?_
    intro _ iteration _ _ hq
    obtain ⟨rfl, rfl⟩ := hq
    have hb := segments_follows casing (opened none
      { q with builder := q.builder.pushScope.declare counter.name }) ss
    rw [names_opened] at hb
    refine follows_bind (body_follows hb) ?_
    intro _ x p₂ _ hq
    obtain ⟨ops, _⟩ := x
    obtain ⟨rfl, h₃⟩ := hq
    refine follows_left (build_run _ _) (follows_ok (build_run _ _) ?_)
    exact h₁.trans (Grown.push (Grown.scoped (h₂.trans h₃)) fun _ => rfl)
  | .each item collection ss => by
    rw [segment, sited]
    refine follows_code casing fun q h₁ => ?_
    rw [← h₁.names]
    refine follows_bind (lower_follows collection) ?_
    intro _ collection _ _ hq
    obtain ⟨rfl, rfl⟩ := hq
    have hb := segments_follows casing (opened (some item) q) ss
    rw [names_opened] at hb
    refine follows_bind (body_follows hb) ?_
    intro _ x p₂ _ hq
    obtain ⟨ops, _⟩ := x
    obtain ⟨rfl, h₂⟩ := hq
    exact follows_ok (build_run _ _) (h₁.trans (h₂.push fun _ => rfl))
  | .action e => by
    rw [segment, sited]
    refine follows_code casing fun q h₁ => ?_
    rw [← h₁.names]
    refine follows_bind (lower_follows e) ?_
    intro _ value _ _ hq
    obtain ⟨rfl, rfl⟩ := hq
    exact follows_ok (build_run _ _) (h₁.trans (grown_push fun _ => rfl))
  | .helper name parameters ss => by
    rw [segment, sited, declared]
    have hb := segments_follows casing { p with builder := .withLocals parameters } ss
    rw [Builder.names_withLocals] at hb
    refine follows_bind (fragment_follows hb) ?_
    intro f r p₁ hx hq
    obtain ⟨hf, h₁⟩ := hq
    refine follows_ok rfl (Grown.helper (d := ⟨true, name, parameters, ss⟩) rfl ?_ h₁)
    rw [hf, fragment_of_sited hx]
  | .namedSection name ss => by
    rw [segment, sited, declared]
    have hb := segments_follows casing { p with builder := .withLocals [] } ss
    rw [Builder.names_withLocals] at hb
    refine follows_bind (fragment_follows hb) ?_
    intro f r p₁ hx hq
    obtain ⟨hf, h₁⟩ := hq
    refine follows_ok rfl (Grown.section (d := ⟨false, name, [], ss⟩) rfl ?_ h₁)
    rw [hf, fragment_of_sited hx]
  | .comment _ => by
    rw [segment, sited]
    exact follows_pure (Grown.refl casing p)

theorem segments_follows (casing : Casing) (p : Progress) :
    ∀ ss : List Segment, Lowers casing (declaredAll ss) (segments casing ss) p (sitedAll casing p.builder.names ss)
  | [] => by
    rw [segments, sitedAll]
    exact follows_pure (Grown.refl casing p)
  | s :: ss => by
    rw [segments, sitedAll]
    refine follows_bind (segment_follows casing p s) ?_
    intro _ r p₁ _ h₁
    obtain ⟨ops, names⟩ := r
    simp only
    rw [← show p₁.builder.names = names from h₁.names]
    refine follows_map (segments_follows casing p₁ ss) ?_
    intro _ r p₂ h₂
    obtain ⟨more, names'⟩ := r
    rw [declaredAll, eraseAll_append]
    exact h₁.trans h₂

theorem alternative_follows (casing : Casing) (p : Progress) :
    ∀ a : Alternative, Follows
      (fun ops r p' => ops = Op.pack [] (SitedOp.eraseAll r) ∧ Grown casing p p' [] p.builder.names (declaredAlternative a))
      (alternative casing a) p (sitedAlternative casing p.builder.names a)
  | .nothing => by
    rw [alternative, sitedAlternative]
    exact follows_pure ⟨rfl, Grown.refl casing p⟩
  | .elseBranch test ss otherwise | .both test ss otherwise _ => by
    rw [alternative, sitedAlternative]
    refine follows_bind (lower_follows test) ?_
    intro _ test _ _ hx
    obtain ⟨rfl, rfl⟩ := hx
    have hb := segments_follows casing (opened none p) ss
    rw [names_opened] at hb
    refine follows_bind (body_follows hb) ?_
    intro _ x p₂ _ hx
    obtain ⟨whenTrue, _⟩ := x
    obtain ⟨rfl, h₂⟩ := hx
    simp only
    rw [← h₂.names]
    refine follows_bind (alternative_follows casing p₂ otherwise) ?_
    intro _ whenFalse p₃ _ hx
    obtain ⟨rfl, h₃⟩ := hx
    exact follows_pure ⟨rfl, h₂.trans (h₂.names ▸ h₃)⟩
  | .elseBody ss => by
    rw [alternative, sitedAlternative]
    have hb := segments_follows casing (opened none p) ss
    rw [names_opened] at hb
    refine follows_map (body_follows hb) ?_
    intro _ _ _ h
    exact h

end

end Generation

end TemplateView
