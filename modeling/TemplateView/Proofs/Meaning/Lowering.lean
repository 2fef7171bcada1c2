/-
Lowering keeps the meaning. A lowered expression evaluates to the value of the expression, and the operations of a segment
do what the walk of the segment does, in all runs that correspond and hold the declared variables. Each is one induction,
with a case for each kind of expression or segment.
-/
import TemplateView.Proofs.Meaning.Mirror
import TemplateView.Proofs.Meaning.Walk

namespace TemplateView

open Execution Generation

variable {casing : Casing} {env : Surroundings} {marks : List Bool} {p : Option OpenAttribute} {names : Names}

/-- two steps give the same result from runs that correspond, and leave runs that correspond -/
abbrev Execution.Parallel {α : Type} (marks : List Bool) (p : Option OpenAttribute) (names : Names)
    (m m' : Execution α) : Prop :=
  ∀ r r', Mirrors marks p names r r' → Sim (fun a b s s' => a = b ∧ Mirrors marks p names s s') (m r) (m' r')

theorem parallel_pure {α : Type} (a : α) : Parallel marks p names (pure a : Execution α) (pure a) :=
  fun _ _ h => sim_pure ⟨rfl, h⟩

theorem parallel_ofResult {α : Type} (x : Except RenderError α) :
    Parallel marks p names (ofResult x : Execution α) (ofResult x) :=
  fun _ _ h => sim_ofResult x fun _ => ⟨rfl, h⟩

theorem parallel_bind {α β : Type} {m m' : Execution α} {f f' : α → Execution β} (hm : Parallel marks p names m m')
    (hf : ∀ a, Parallel marks p names (f a) (f' a)) : Parallel marks p names (m >>= f) (m' >>= f') := by
  intro r r' h
  refine sim_bind (hm r r' h) ?_
  intro a _ s s' hx
  obtain ⟨rfl, hs⟩ := hx
  exact hf a s s' hs

theorem parallel_assign (name : String) (v : Value) : Parallel marks p names (assign name v) (assign name v) :=
  fun _ _ h => (sim_assign name v h).mono fun _ _ _ _ hs => ⟨rfl, hs⟩

/-! ## Operators -/

/-- where every operator is written in its own way, the operator written so is the one that a text gives -/
theorem written?_eq {α : Type} {operators : List α} {text : α → String} {ofText? : String → Option α}
    (hall : ∀ op, op ∈ operators) (hof : ∀ op, ofText? (text op) = some op)
    (htext : ∀ {s op}, ofText? s = some op → text op = s) (s : String) : written? operators text s = ofText? s := by
  unfold written?
  cases hs : ofText? s with
  | none =>
    refine List.find?_eq_none.2 fun op _ ho => ?_
    rw [← of_decide_eq_true ho, hof] at hs
    cases hs
  | some op =>
    cases hf : operators.find? (text · = s) with
    | none => exact absurd (decide_eq_true (htext hs)) (List.find?_eq_none.1 hf op (hall op))
    | some other =>
      have ho : text other = s := of_decide_eq_true (List.find?_some (p := fun x => decide (text x = s)) hf)
      rw [← hof other, ho, hs]

theorem written?_unary (s : String) : written? UnaryOperator.all UnaryOperator.text s = UnaryOperator.ofText? s :=
  written?_eq (fun op => by cases op <;> decide) UnaryOperator.ofText?_text UnaryOperator.text_of_ofText? s

theorem written?_step (s : String) : written? Step.all Step.text s = Step.ofText? s :=
  written?_eq (fun op => by cases op <;> decide) Step.ofText?_text Step.text_of_ofText? s

theorem written?_binary (s : String) : written? BinaryOperator.all BinaryOperator.text s = BinaryOperator.ofText? s :=
  written?_eq (fun op => by cases op <;> decide) BinaryOperator.ofText?_text BinaryOperator.text_of_ofText? s

/-- an assignment is written with `=` behind what it combines the old value with -/
theorem assigning?_eq {operator compound : String} (h : compound? operator = some compound) :
    assigning? operator = if compound = "" then some none else (BinaryOperator.ofText? compound).map some := by
  obtain rfl := compound?_eq_some.1 h
  have he : compound ++ "=" = "=" ↔ compound = "" := by
    rw [← String.toList_inj, ← String.toList_inj, String.toList_append]
    simp
  have hw : written? BinaryOperator.all (·.text ++ "=") (compound ++ "=") = BinaryOperator.ofText? compound := by
    rw [← written?_binary]
    unfold written?
    simp only [String.append_left_inj]
  unfold assigning?
  simp only [he, hw]

/-! ## Expressions -/

theorem parallel_binary (op : BinaryOperator) {m m' : Execution Value} {x y : Expr}
    (hx : Parallel marks p names m (x.eval env)) (hy : Parallel marks p names m' (y.eval env)) :
    Parallel marks p names (op.between m m') ((Expr.binary x op y).eval env) := by
  rw [Expr.eval]
  refine parallel_bind hx fun v => ?_
  split
  · exact parallel_pure v
  · exact parallel_bind hy fun w => parallel_ofResult _

theorem parallel_setTo (name : String) {m : Execution Value} {x : Expr} (h : Parallel marks p names m (x.eval env)) :
    Parallel marks p names (setTo name m) ((Expr.assign name x).eval env) := by
  rw [Expr.eval]
  exact parallel_bind h fun v => parallel_bind (parallel_assign name v) fun _ => parallel_pure v

/-- a bare name means the same in the walk, which looks at the variables, as in the program, where it was resolved -/
theorem parallel_name (name : String) :
    Parallel marks p names (named casing env name) (((names.naming casing).resolve name).eval env) := by
  intro r r' h
  have hl : r'.scopes.lookup? name = r.scopes.lookup? name := by rw [h.mirror.scopes, Scopes.lookup?_pad]
  have hn : names.isDeclared name = (r.scopes.lookup? name).isSome := by
    rw [← hl, Scopes.isSome_lookup?, Bool.eq_iff_iff, ← Names.mem_all, ← Scopes.mem_names]
    exact (h.fits.agrees name).symm
  unfold Naming.resolve
  show Sim _ (named casing env name r) ((if names.isDeclared name then Expr.local name
    else if casing.apply name = "model" then .modelRoot else .model (casing.apply name)).eval env r')
  rw [hn]
  cases hv : r.scopes.lookup? name with
  | some v =>
    have hw : named casing env name r = .ok (v, r) := by
      unfold named
      rw [bind_run, get_run]
      simp only [hv]
      rfl
    rw [hw]
    have hx : (Expr.local name).eval env r' = .ok (v, r') := by
      rw [Expr.eval, lookup, bind_run, get_run]
      simp only [hl, hv]
      rfl
    rw [Option.isSome_some, if_pos rfl, hx]
    exact ⟨rfl, h⟩
  | none =>
    have hw : named casing env name r =
        .ok (if casing.apply name = "model" then env.model else env.model.property (casing.apply name), r) := by
      unfold named
      rw [bind_run, get_run]
      simp only [hv]
      rfl
    rw [hw, Option.isSome_none, if_neg Bool.false_ne_true]
    by_cases hm : casing.apply name = "model"
    · rw [if_pos hm, if_pos hm]
      exact ⟨rfl, h⟩
    · rw [if_neg hm, if_neg hm]
      exact ⟨rfl, h⟩

mutual

/-- **A lowered expression has the value of the expression.** -/
theorem parallel_expression : ∀ {e : Expression} {x : Expr}, (names.naming casing).expression e = .ok x →
    Parallel marks p names (e.value casing env) (x.eval env)
  | .name name _, x, h => by
    cases h
    rw [Expression.value]
    exact parallel_name name
  | .member object name _, x, h => by
    simp only [Naming.expression, bind_eq_ok] at h
    obtain ⟨o, ho, ⟨⟩⟩ := h
    rw [Expression.value, Expr.eval]
    exact parallel_bind (parallel_expression ho) fun v => parallel_ofResult _
  | .literal raw, x, h => by
    rw [Naming.expression] at h
    rw [Expression.value]
    cases hv : literalValue? raw with
    | some v =>
      simp only [hv] at h
      cases h
      exact parallel_pure v
    | none =>
      simp only [hv] at h
      cases h
  | .call callee arguments, x, h => by
    simp only [Naming.expression, bind_eq_ok] at h
    obtain ⟨as, has, h⟩ := h
    cases callee with
    | name name _ =>
      simp only at h
      split at h
      · cases h
      · cases h
        rw [Expression.value, Expr.eval]
        exact parallel_bind (parallel_expressions has) fun vs _ _ hr => sim_lift _ fun _ => ⟨rfl, hr⟩
    | member object name _ =>
      simp only [bind_eq_ok] at h
      obtain ⟨o, ho, ⟨⟩⟩ := h
      rw [Expression.value, Expr.eval]
      exact parallel_bind (parallel_expression ho) fun v => parallel_bind (parallel_expressions has) fun vs =>
        parallel_ofResult _
    | _ => cases h
  | .index target key, x, h => by
    simp only [Naming.expression, bind_eq_ok] at h
    obtain ⟨t, ht, k, hk, ⟨⟩⟩ := h
    rw [Expression.value, Expr.eval]
    exact parallel_bind (parallel_expression ht) fun v => parallel_bind (parallel_expression hk) fun k =>
      parallel_ofResult _
  | .array items, x, h => by
    simp only [Naming.expression, bind_eq_ok] at h
    obtain ⟨is, his, ⟨⟩⟩ := h
    rw [Expression.value, Expr.eval]
    exact parallel_bind (parallel_expressions his) fun vs => parallel_pure _
  | .unary op fixity operand, x, h => by
    rw [Expression.value, written?_unary]
    cases Naming.lowersUnary_of_ok h with
    | apply ho hx =>
      rw [ho, Expr.eval]
      exact parallel_bind (parallel_expression hx) fun v => parallel_ofResult _
    | update hs ht hl =>
      rw [UnaryOperator.ofText?_of_step hs, ht, Expr.eval]
      simp only [Expression.counted, written?_step, hs]
      exact fun r r' hr => sim_update _ _ fixity hr
  | .binary left op right, x, h => by
    rw [Expression.value, written?_binary]
    cases Naming.lowersBinary_of_ok h with
    | apply ho hx hy =>
      rw [ho]
      exact parallel_binary _ (parallel_expression hx) (parallel_expression hy)
    | set ho ht hl hy =>
      obtain rfl := compound?_eq_some.1 ho
      subst ht
      exact parallel_setTo _ (parallel_expression hy)
    | @combine _ compound _ _ _ hn hc ho ht hl hy =>
      have hne : compound ≠ "" := by rintro rfl; cases ho
      rw [hn, ht]
      simp only [Expression.assigned, assigning?_eq hc, if_neg hne, ho, Option.map_some]
      exact parallel_setTo _ (parallel_binary _ (fun r r' hr => sim_lookup _ hr) (parallel_expression hy))
  | .conditional test whenTrue whenFalse, x, h => by
    simp only [Naming.expression, bind_eq_ok] at h
    obtain ⟨t, ht, w, hw, f, hf, ⟨⟩⟩ := h
    rw [Expression.value, Expr.eval]
    refine parallel_bind (parallel_expression ht) fun v => ?_
    split
    · exact parallel_expression hw
    · exact parallel_expression hf

theorem parallel_expressions : ∀ {es : List Expression} {xs : List Expr},
    (names.naming casing).expressions es = .ok xs →
    Parallel marks p names (Expression.values casing env es) (Expr.evalAll env xs)
  | [], xs, h => by
    rw [Naming.expressions] at h
    cases h
    rw [Expression.values, Expr.evalAll]
    exact parallel_pure []
  | e :: es, xs, h => by
    simp only [Naming.expressions, bind_eq_ok] at h
    obtain ⟨y, hy, ys, hys, ⟨⟩⟩ := h
    rw [Expression.values, Expr.evalAll]
    exact parallel_bind (parallel_expression hy) fun v => parallel_bind (parallel_expressions hys) fun vs =>
      parallel_pure _

end

theorem parallel_site {source : Expression} {s : Site casing} (h : site casing names source = .ok s) :
    Parallel marks p names (source.value casing env) (s.expr.eval env) :=
  parallel_expression (of_site h).2

theorem parallel_init {d : Declaration} {s : Option (Site casing)} (h : siteOption casing names d.init = .ok s) :
    Parallel marks p names (d.value casing env) (Expr.evalOption env (s.map Site.expr)) := by
  unfold Declaration.value
  cases hd : d.init with
  | none => rw [hd] at h; cases h; exact parallel_pure Value.null
  | some e =>
    rw [hd] at h
    simp only [siteOption, bind_eq_ok] at h
    obtain ⟨st, hst, ⟨⟩⟩ := h
    exact parallel_site hst

theorem parallel_holds {test : Expression} {s : Site casing} (h : site casing names test = .ok s) :
    Parallel marks p names (do return (← test.value casing env).isTruthy) (s.expr.holds env) :=
  parallel_bind (parallel_site h) fun _ => parallel_pure _

/-! ## Operations -/

/-- a step of a walk and the operations for it, in runs that correspond -/
abbrev SitedOp.Does (env : Surroundings) (marks : List Bool) (names names' : Names) (m : Execution Unit)
    (ops : List (SitedOp casing)) : Prop :=
  ∀ r r', Mirrors marks none names r r' →
    Sim (fun _ _ s s' => Mirrors marks none names' s s') (m r) (Op.execAll env (SitedOp.eraseAll ops) r')

theorem does_nil : SitedOp.Does env marks names names (pure ()) ([] : List (SitedOp casing)) :=
  fun _ _ h => sim_pure h

theorem does_append {names₁ names₂ : Names} {m m' : Execution Unit} {ops more : List (SitedOp casing)}
    (h : SitedOp.Does env marks names names₁ m ops) (h' : SitedOp.Does env marks names₁ names₂ m' more) :
    SitedOp.Does env marks names names₂ (m >>= fun _ => m') (ops ++ more) := by
  intro r r' hr
  rw [eraseAll_append, execAll_append]
  exact sim_bind (h r r' hr) fun _ _ s s' hs => h' s s' hs

theorem does_singleton {names' : Names} {m : Execution Unit} {op : SitedOp casing}
    (h : ∀ r r', Mirrors marks none names r r' →
      Sim (fun _ _ s s' => Mirrors marks none names' s s') (m r) (op.erase.exec env r')) :
    SitedOp.Does env marks names names' m [op] := by
  intro r r' hr
  rw [SitedOp.eraseAll, SitedOp.eraseAll, execAll_singleton]
  exact h r r' hr

theorem does_text (s : String) : SitedOp.Does env marks names names (write s) [(.text s : SitedOp casing)] :=
  does_singleton fun _ _ h => by
    rw [SitedOp.erase, Op.exec]
    exact sim_write s h

/-! ## Tags -/

theorem mirrors_addPart {r r' : Run} {o : String} {acc : List String} (s : String)
    (h : Mirrors marks (some ⟨o, acc⟩) names r r') :
    Mirrors marks (some ⟨o, acc ++ if s.isEmpty then [] else [s]⟩) names r (r'.addPart s) := by
  have hp := h.mirror.pending
  unfold Run.addPart
  split
  · rw [List.append_nil]; exact h
  · refine ⟨⟨h.mirror.scopes, h.mirror.html, h.mirror.plain, ?_, h.mirror.deep⟩, h.fits⟩
    show r'.pending.map _ = _
    rw [hp]
    rfl

/-- a piece of an attribute value is collected as shown -/
theorem sim_part {part : ValuePart} {op : SitedOp casing} (h : sitedPart casing names part = .ok op) {o : String}
    {acc : List String} {r r' : Run} (hr : Mirrors marks (some ⟨o, acc⟩) names r r') :
    Sim (fun s _ t t' => Mirrors marks (some ⟨o, acc ++ if s.isEmpty then [] else [s]⟩) names t t')
      (part.shown casing env r) (op.erase.exec env r') := by
  cases part with
  | text s =>
    cases h
    exact mirrors_addPart _ hr
  | inline i =>
    simp only [sitedPart, bind_eq_ok] at h
    obtain ⟨value, hv, ⟨⟩⟩ := h
    rw [SitedOp.erase, Op.exec, ValuePart.shown, AttributePart.shown, bind_assoc]
    refine sim_bind (parallel_site hv r r' hr) ?_
    intro v _ s s' hx
    obtain ⟨rfl, hs⟩ := hx
    exact mirrors_addPart _ hs

theorem sim_parts {parts : List ValuePart} {ops : List (SitedOp casing)} (h : sitedParts casing names parts = .ok ops)
    {o : String} {acc : List String} {r r' : Run} (hr : Mirrors marks (some ⟨o, acc⟩) names r r') :
    Sim (fun shown _ t t' => Mirrors marks (some ⟨o, acc ++ shown⟩) names t t')
      (ValuePart.allShown casing env parts r) (Op.execAll env (SitedOp.eraseAll ops) r') := by
  induction parts generalizing ops acc r r' with
  | nil =>
    cases h
    refine sim_pure ?_
    rw [List.append_nil]
    exact hr
  | cons part parts ih =>
    simp only [sitedParts, bind_eq_ok] at h
    obtain ⟨op, hop, more, hmore, ⟨⟩⟩ := h
    rw [SitedOp.eraseAll, Op.execAll, ValuePart.allShown]
    refine sim_bind (sim_part hop hr) fun s _ t t' ht => ?_
    have hrest := ih hmore ht
    rw [← bind_pure (Op.execAll env (SitedOp.eraseAll more))]
    refine sim_bind hrest fun shown _ u u' hu => sim_pure ?_
    rw [List.append_assoc] at hu
    split
    · next he => rw [if_pos he] at hu; exact hu
    · next he => rw [if_neg he] at hu; exact hu

/-- a text without expressions is written as it stands -/
theorem standing_eq : ValuePart.standing = plainText := by
  funext part
  cases part <;> rfl

theorem does_attribute {a : Attribute} {ops : List (SitedOp casing)} (h : sitedAttribute casing names a = .ok ops) :
    SitedOp.Does env marks names names (a.walk casing env) ops := by
  unfold sitedAttribute at h
  unfold Attribute.walk
  cases hq : a.quote with
  | none =>
    simp only [hq] at h
    cases h
    exact does_text _
  | some quote =>
    simp only [hq] at h ⊢
    by_cases hi : a.values.any ValuePart.isInline
    · rw [if_pos hi] at h ⊢
      simp only [bind_eq_ok] at h
      obtain ⟨parts, hparts, ⟨⟩⟩ := h
      intro r r' hr
      have hx : Op.execAll env (SitedOp.eraseAll
          (.beginAttribute (opening a quote) :: (parts ++ [.endAttribute (String.singleton quote)]))) =
          ((Op.beginAttribute (opening a quote)).exec env >>= fun _ =>
            Op.execAll env (SitedOp.eraseAll parts) >>= fun _ => (Op.endAttribute (String.singleton quote)).exec env) := by
        rw [SitedOp.eraseAll, Op.execAll, eraseAll_append, execAll_append, SitedOp.eraseAll, SitedOp.eraseAll,
          execAll_singleton]
        rfl
      rw [hx]
      refine sim_right rfl ?_
      have hb : Mirrors marks (some ⟨opening a quote, []⟩) names r { r' with pending := some ⟨opening a quote, []⟩ } :=
        ⟨⟨hr.mirror.scopes, hr.mirror.html, hr.mirror.plain, rfl, hr.mirror.deep⟩, hr.fits⟩
      refine sim_bind (sim_parts hparts hb) fun shown _ s s' hs => ?_
      have hp := hs.mirror.pending
      rw [List.nil_append] at hp
      have hc : s'.closeAttribute (String.singleton quote) =
          { s' with
            html := s'.html ++ Run.attributeText ⟨opening a quote, shown⟩ (String.singleton quote), pending := none } := by
        rw [Run.closeAttribute, hp]
      rw [Op.exec]
      show Sim _ _ (Except.ok ((), s'.closeAttribute (String.singleton quote)))
      rw [hc]
      exact ⟨⟨hs.mirror.scopes, congrArg (· ++ _) hs.mirror.html, hs.mirror.plain, rfl, hs.mirror.deep⟩, hs.fits⟩
    · rw [if_neg hi] at h ⊢
      cases h
      rw [standing_eq]
      exact does_text _

theorem does_attributes {as : List Attribute} {ops : List (SitedOp casing)} (h : sitedAttributes casing names as = .ok ops) :
    SitedOp.Does env marks names names (as.forM (Attribute.walk casing env)) ops := by
  induction as generalizing ops with
  | nil => cases h; exact does_nil
  | cons a as ih =>
    simp only [sitedAttributes, bind_eq_ok] at h
    obtain ⟨ops₁, h₁, ops₂, h₂, ⟨⟩⟩ := h
    exact does_append (does_attribute h₁) (ih h₂)

theorem does_tag {tag : Tag} {ops : List (SitedOp casing)} (h : sitedTag casing names tag = .ok ops) :
    SitedOp.Does env marks names names (tag.walk casing env) ops := by
  simp only [sitedTag, bind_eq_ok] at h
  obtain ⟨as, has, ⟨⟩⟩ := h
  exact does_append (does_text _) (does_append (does_attributes has) (does_text _))

/-! ## Segments -/

/-- a body with a scope of its own, packed in the program -/
theorem sim_body {inner after : Names} {m : Execution Unit} {ops : List (SitedOp casing)}
    (h : SitedOp.Does env (false :: marks) inner after m ops) (hi : ∀ s, names.Fits s → inner.Fits s.enter) {r r' : Run}
    (hr : Mirrors marks none names r r') :
    Sim (fun _ _ s s' => Mirrors marks none names s s') (inScope m r)
      (inScope (Op.execAll env (Op.pack [] (SitedOp.eraseAll ops))) r') := by
  rw [execAll_packed]
  exact sim_inScope after (below_execAll env _) hi h hr

/-- a conditional, if what follows the body does as its operations in a scope of theirs -/
theorem sim_branch {test : Expression} {s : Site casing} (ht : site casing names test = .ok s)
    {m m' : Execution Unit} {whenTrue whenFalse : List (SitedOp casing)}
    (hw : ∀ r r', Mirrors marks none names r r' → Sim (fun _ _ s s' => Mirrors marks none names s s') (m r)
      (inScope (Op.execAll env (Op.pack [] (SitedOp.eraseAll whenTrue))) r'))
    (hf : ∀ r r', Mirrors marks none names r r' → Sim (fun _ _ s s' => Mirrors marks none names s s') (m' r)
      (inScope (Op.execAll env (Op.pack [] (SitedOp.eraseAll whenFalse))) r')) :
    SitedOp.Does env marks names names (do let v ← test.value casing env; if v.isTruthy then m else m')
      [.branch s whenTrue whenFalse] := by
  have he : (do let v ← test.value casing env; if v.isTruthy then m else m' : Execution Unit) =
      ((do return (← test.value casing env).isTruthy) >>= fun b => if b then m else m') := by
    simp only [bind_assoc, pure_bind]
  rw [he]
  refine does_singleton fun r r' hr => ?_
  rw [SitedOp.erase, Op.exec]
  refine sim_bind (parallel_holds ht r r' hr) ?_
  intro b _ t t' h
  obtain ⟨rfl, hs⟩ := h
  cases b with
  | true => exact hw t t' hs
  | false => exact hf t t' hs

mutual

/-- **The operations of a segment do what its walk does.** -/
theorem does_segment {marks : List Bool} (hm : marks.head? ≠ some true) {names : Names}
    {r : List (SitedOp casing) × Names} : ∀ {s : Segment}, sited casing names s = .ok r →
    SitedOp.Does env marks names r.2 (s.walk casing env) r.1
  | .text _, h => by rw [sited] at h; cases h; rw [Segment.walk]; exact does_text _
  | .element tag children close, h => by
    simp only [sited, bind_eq_ok] at h
    obtain ⟨head, hhead, ⟨ops, after⟩, hops, ⟨⟩⟩ := h
    rw [Segment.walk]
    exact does_append (does_tag hhead) (does_append (does_text ">")
      (does_append (does_segments hm hops) (does_text _)))
  | .emptyElement tag closing, h => by
    simp only [sited, bind_eq_ok] at h
    obtain ⟨head, hhead, ⟨⟩⟩ := h
    cases closing with
    | slash =>
      rw [Segment.walk]
      exact does_append (does_tag hhead) (does_text "/>")
    | void =>
      rw [Segment.walk]
      exact does_append (does_tag hhead) (does_text ">")
  | .htmlComment .., h => by rw [sited] at h; cases h; rw [Segment.walk]; exact does_text _
  | .docType .., h => by rw [sited] at h; cases h; rw [Segment.walk]; exact does_text _
  | .inline i, h => by
    simp only [sited, bind_eq_ok] at h
    obtain ⟨value, hv, ⟨⟩⟩ := h
    rw [Segment.walk]
    refine does_append (does_text i.leading) (does_singleton fun s s' hs => ?_)
    rw [SitedOp.erase, Op.exec]
    refine sim_bind (parallel_site hv s s' hs) ?_
    intro v _ t t' hq
    obtain ⟨rfl, ht⟩ := hq
    exact sim_write v.escaped ht
  | .block ss, h => by
    rw [sited] at h
    rw [Segment.walk]
    exact does_segments hm h
  | .declaration d, h => by
    simp only [sited, bind_eq_ok] at h
    obtain ⟨init, hi, ⟨⟩⟩ := h
    rw [Segment.walk]
    refine does_singleton fun s s' hs => ?_
    rw [SitedOp.erase, Op.exec]
    refine sim_bind (parallel_init hi s s' hs) ?_
    intro v _ t t' hq
    obtain ⟨rfl, ht⟩ := hq
    exact sim_declare d.name v hm ht
  | .branch test ss otherwise, h => by
    simp only [sited, bind_eq_ok] at h
    obtain ⟨t, ht, ⟨w, _⟩, hw, f, hf, ⟨⟩⟩ := h
    rw [Segment.walk]
    exact sim_branch ht (fun s s' hs => sim_body (does_segments (head?_unmarked _) hw) (fun _ => Names.Fits.enter) hs)
      (does_alternative hf)
  | .loop counter condition iteration ss, h => by
    simp only [sited, bind_eq_ok] at h
    obtain ⟨init, hi, c, hc, it, hit, ⟨ops, _⟩, hops, ⟨⟩⟩ := h
    rw [Segment.walk]
    refine does_singleton fun s s' hs => ?_
    rw [SitedOp.erase, Op.exec]
    refine sim_inScope (names.nest.declare counter.name) (below_rounds counter.name _ _ _ (below_execAll env _))
      (fun _ => Names.Fits.enter) (fun t t' ht => ?_) hs
    refine sim_bind (parallel_init hi t t' ht) ?_
    intro v _ u u' hq
    obtain ⟨rfl, hu⟩ := hq
    refine sim_bind (sim_declare counter.name v (head?_unmarked _) hu) fun _ _ w w' hw => ?_
    refine sim_repeatWhile (parallel_holds hc) (fun a a' ha => ?_) env.steps w w' hw
    refine sim_bind (sim_body (does_segments (head?_unmarked _) hops) (fun _ => Names.Fits.enter) ha) fun _ _ b b' hb => ?_
    exact sim_bind (parallel_site hit b b' hb) fun _ _ _ _ hx => sim_pure hx.2
  | .each item collection ss, h => by
    simp only [sited, bind_eq_ok] at h
    obtain ⟨c, hc, ⟨ops, after⟩, hops, ⟨⟩⟩ := h
    rw [Segment.walk]
    refine does_singleton fun s s' hs => ?_
    rw [SitedOp.erase, Op.exec]
    refine sim_bind (parallel_site hc s s' hs) ?_
    intro v _ t t' hq
    obtain ⟨rfl, ht⟩ := hq
    refine sim_bind (parallel_ofResult v.iterate t t' ht) ?_
    intro items _ u u' hq
    obtain ⟨rfl, hu⟩ := hq
    refine sim_forM items (fun w a a' ha => ?_) u u' hu
    rw [execAll_packed]
    refine sim_inScope after (fun r => below_bind (below_declare item w r) fun _ => below_execAll env _)
      (fun _ => Names.Fits.enter) (fun b b' hb => ?_) ha
    exact sim_bind (sim_declare item w (head?_unmarked _) hb) fun _ _ x x' hx => does_segments (head?_unmarked _) hops x x' hx
  | .action a, h => by
    simp only [sited, bind_eq_ok] at h
    obtain ⟨value, hv, ⟨⟩⟩ := h
    rw [Segment.walk]
    refine does_singleton fun s s' hs => ?_
    rw [SitedOp.erase, Op.exec]
    exact sim_bind (parallel_site hv s s' hs) fun _ _ _ _ ht => sim_pure ht.2
  | .helper .., h => by
    simp only [sited, bind_eq_ok] at h
    obtain ⟨_, -, ⟨⟩⟩ := h
    rw [Segment.walk]
    exact does_nil
  | .namedSection .., h => by
    simp only [sited, bind_eq_ok] at h
    obtain ⟨_, -, ⟨⟩⟩ := h
    rw [Segment.walk]
    exact does_nil
  | .comment _, h => by rw [sited] at h; cases h; rw [Segment.walk]; exact does_nil

theorem does_segments {marks : List Bool} (hm : marks.head? ≠ some true) {names : Names}
    {r : List (SitedOp casing) × Names} : ∀ {ss : List Segment}, sitedAll casing names ss = .ok r →
    SitedOp.Does env marks names r.2 (Segment.walkAll casing env ss) r.1
  | [], h => by rw [sitedAll] at h; cases h; rw [Segment.walkAll]; exact does_nil
  | s :: ss, h => by
    simp only [sitedAll, bind_eq_ok] at h
    obtain ⟨⟨ops, between⟩, h₁, ⟨more, after⟩, h₂, ⟨⟩⟩ := h
    rw [Segment.walkAll]
    exact does_append (does_segment hm h₁) (does_segments hm h₂)

/-- what follows the body of an `if` runs in a scope of its own in the program alone -/
theorem does_alternative {marks : List Bool} {names : Names} {ops : List (SitedOp casing)} :
    ∀ {a : Alternative}, sitedAlternative casing names a = .ok ops → ∀ r r', Mirrors marks none names r r' →
      Sim (fun _ _ s s' => Mirrors marks none names s s') (a.walk casing env r)
        (inScope (Op.execAll env (Op.pack [] (SitedOp.eraseAll ops))) r')
  | .nothing, h => by
    rw [sitedAlternative] at h
    cases h
    intro r r' hr
    rw [Alternative.walk, execAll_packed]
    exact sim_inScope_right (below_execAll env _) does_nil hr
  | .elseBranch test ss otherwise, h | .both test ss otherwise _, h => by
    simp only [sitedAlternative, bind_eq_ok] at h
    obtain ⟨t, ht, ⟨w, _⟩, hw, f, hf, ⟨⟩⟩ := h
    intro r r' hr
    rw [Alternative.walk, execAll_packed]
    refine sim_inScope_right (below_execAll env _) (sim_branch ht ?_ (does_alternative hf)) hr
    exact fun s s' hs => sim_body (does_segments (head?_unmarked _) hw) (fun _ => Names.Fits.enter) hs
  | .elseBody ss, h => by
    simp only [sitedAlternative, bind_eq_ok] at h
    obtain ⟨⟨w, _⟩, hw, ⟨⟩⟩ := h
    intro r r' hr
    rw [Alternative.walk]
    exact sim_body (does_segments (head?_unmarked _) hw) (fun _ => Names.Fits.enter) hr

end

end TemplateView
