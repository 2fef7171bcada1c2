/-
Casing as a renaming of programs. `Expr.recase` and `Op.recase` put a casing on the names of properties and methods in a
program and leave all else as it stands; a property of the model that gets the reserved name becomes the model itself.

Lowering under a casing is lowering with all names as written, then renamed, and it fails where that fails and for the same
cause. `paired_expression` shows it for expressions and `paired_sited` for segments, by recursion over the template: whether
a name is a local is asked of the name as written, so both lowerings go the same way.
-/
import TemplateView.Proofs.Generation.Compilation

namespace TemplateView

/-- the reserved name is the same under every casing -/
theorem Casing.apply_model (casing : Casing) : casing.apply "model" = "model" := by
  cases casing <;> decide +kernel

/-! ## Renamed programs -/

mutual

/-- the expression with its properties and methods renamed -/
def Expr.recase (casing : Casing) : Expr → Expr
  | .constant v => .constant v
  | .local name => .local name
  | .model name => if casing.apply name = "model" then .modelRoot else .model (casing.apply name)
  | .modelRoot => .modelRoot
  | .member object name => .member (object.recase casing) (casing.apply name)
  | .index target key => .index (target.recase casing) (key.recase casing)
  | .callHelper name arguments => .callHelper name (Expr.recaseAll casing arguments)
  | .callMethod receiver name arguments =>
    .callMethod (receiver.recase casing) (casing.apply name) (Expr.recaseAll casing arguments)
  | .array items => .array (Expr.recaseAll casing items)
  | .unary operator operand => .unary operator (operand.recase casing)
  | .update name step fixity => .update name step fixity
  | .binary left operator right => .binary (left.recase casing) operator (right.recase casing)
  | .assign name value => .assign name (value.recase casing)
  | .conditional test whenTrue whenFalse =>
    .conditional (test.recase casing) (whenTrue.recase casing) (whenFalse.recase casing)

def Expr.recaseAll (casing : Casing) : List Expr → List Expr
  | [] => []
  | e :: es => e.recase casing :: Expr.recaseAll casing es

end

def AttributePart.recase (casing : Casing) : AttributePart → AttributePart
  | .text s => .text s
  | .value e => .value (e.recase casing)

mutual

/-- the operation with the properties and methods in its expressions renamed, and so in its bodies -/
def Op.recase (casing : Casing) : Op → Op
  | .text s => .text s
  | .emit value => .emit (value.recase casing)
  | .beginAttribute opening => .beginAttribute opening
  | .attributePart part => .attributePart (part.recase casing)
  | .endAttribute closing => .endAttribute closing
  | .declare name init => .declare name (init.map (·.recase casing))
  | .eval value => .eval (value.recase casing)
  | .branch test whenTrue whenFalse =>
    .branch (test.recase casing) (Op.recaseAll casing whenTrue) (Op.recaseAll casing whenFalse)
  | .loop counter init condition iteration body =>
    .loop counter (init.map (·.recase casing)) (condition.recase casing) (iteration.recase casing)
      (Op.recaseAll casing body)
  | .each item collection body => .each item (collection.recase casing) (Op.recaseAll casing body)

def Op.recaseAll (casing : Casing) : List Op → List Op
  | [] => []
  | op :: ops => op.recase casing :: Op.recaseAll casing ops

end

def Fragment.recase (casing : Casing) (f : Fragment) : Fragment := ⟨f.parameters, Op.recaseAll casing f.program⟩

theorem Op.recaseAll_eq (casing : Casing) (ops : List Op) : Op.recaseAll casing ops = ops.map (Op.recase casing) := by
  induction ops with
  | nil => rfl
  | cons op ops ih => rw [Op.recaseAll, ih, List.map_cons]

theorem Op.recaseAll_append (casing : Casing) (ops more : List Op) :
    Op.recaseAll casing (ops ++ more) = Op.recaseAll casing ops ++ Op.recaseAll casing more := by
  simp only [Op.recaseAll_eq, List.map_append]

/-- an operation is added behind renamed ones as it was behind the others: text is joined with text -/
theorem Op.recaseAll_add (casing : Casing) (ops : List Op) (op : Op) :
    Op.recaseAll casing (Op.add ops op) = Op.add (Op.recaseAll casing ops) (op.recase casing) := by
  have hlast : (Op.recaseAll casing ops).getLast? = ops.getLast?.map (Op.recase casing) := by
    rw [Op.recaseAll_eq, List.getLast?_map]
  have hinit : (Op.recaseAll casing ops).dropLast = Op.recaseAll casing ops.dropLast := by
    rw [Op.recaseAll_eq, Op.recaseAll_eq, List.map_dropLast]
  cases op with
  | text s =>
    simp only [Op.add, Op.recase]
    by_cases hs : s.isEmpty = true
    · rw [if_pos hs, if_pos hs]
    · rw [if_neg hs, if_neg hs, Builder.appendText, Builder.appendText, hlast, hinit]
      cases ops.getLast? with
      | none => exact Op.recaseAll_append casing _ _
      | some last => cases last <;> exact Op.recaseAll_append casing _ _
  | _ => exact Op.recaseAll_append casing ops _

theorem Op.recaseAll_pack (casing : Casing) (ops more : List Op) :
    Op.recaseAll casing (Op.pack ops more) = Op.pack (Op.recaseAll casing ops) (Op.recaseAll casing more) := by
  induction more generalizing ops with
  | nil => rfl
  | cons op more ih =>
    rw [Op.recaseAll]
    show Op.recaseAll casing (Op.pack (Op.add ops op) more) = Op.pack (Op.add _ (op.recase casing)) _
    rw [ih, Op.recaseAll_add]

namespace Generation

/-! ## Pairs of computations -/

/-- two computations fail for the same cause, or both succeed with related results -/
def Paired {ε α β : Type} (Q : α → β → Prop) : Except ε α → Except ε β → Prop
  | .ok a, .ok b => Q a b
  | .error e, .error e' => e = e'
  | .ok _, .error _ => False
  | .error _, .ok _ => False

section

variable {ε α β γ δ : Type} {Q : α → β → Prop} {R : γ → δ → Prop}

theorem paired_ok {a : α} {b : β} (h : Q a b) : Paired Q (.ok a : Except ε α) (.ok b) := h

theorem paired_error (e : ε) : Paired Q (.error e) (.error e) := rfl

theorem Paired.bind {x : Except ε α} {y : Except ε β} {f : α → Except ε γ} {g : β → Except ε δ} (h : Paired Q x y)
    (hf : ∀ a b, Q a b → Paired R (f a) (g b)) : Paired R (x >>= f) (y >>= g) := by
  cases x with
  | ok a =>
    cases y with
    | ok b => exact hf a b h
    | error e => exact h.elim
  | error e =>
    cases y with
    | ok b => exact h.elim
    | error e' => exact h

end

/-! ## Expressions -/

/-- the second expression is the first one, renamed -/
def Recased (casing : Casing) (e e' : Expr) : Prop := e' = e.recase casing

theorem recase_resolve (casing : Casing) (isLocal : String → Bool) (name : String) :
    Recased casing ((⟨.identity, isLocal⟩ : Naming).resolve name) ((⟨casing, isLocal⟩ : Naming).resolve name) := by
  have hi : Casing.identity.apply name = name := rfl
  unfold Recased Naming.resolve
  by_cases hl : isLocal name = true
  · simp only [hl, if_true, Expr.recase]
  · simp only [if_neg hl, hi]
    by_cases hm : name = "model"
    · rw [if_pos hm, hm, if_pos casing.apply_model, Expr.recase]
    · rw [if_neg hm, Expr.recase]

/-- the target of an update or of an assignment is a local, whose name is not renamed -/
theorem target?_casing (casing : Casing) (isLocal : String → Bool) (e : Expression) :
    (⟨casing, isLocal⟩ : Naming).target? e = (⟨.identity, isLocal⟩ : Naming).target? e := by
  cases e <;> rfl

theorem paired_update (casing : Casing) (isLocal : String → Bool) (step : Step) (fixity : Fixity)
    (operand : Expression) :
    Paired (Recased casing) ((⟨.identity, isLocal⟩ : Naming).update step fixity operand)
      ((⟨casing, isLocal⟩ : Naming).update step fixity operand) := by
  rw [Naming.update, Naming.update, target?_casing casing]
  cases (⟨.identity, isLocal⟩ : Naming).target? operand with
  | some name => exact paired_ok rfl
  | none => exact paired_error _

theorem paired_assignment (casing : Casing) (isLocal : String → Bool) (target : Expression) (operator : String)
    (value : Expr) :
    Paired (Recased casing) ((⟨.identity, isLocal⟩ : Naming).assignment target operator value)
      ((⟨casing, isLocal⟩ : Naming).assignment target operator (value.recase casing)) := by
  rw [Naming.assignment, Naming.assignment, target?_casing casing]
  cases compound? operator with
  | none => exact paired_error _
  | some compound =>
    cases (⟨.identity, isLocal⟩ : Naming).target? target with
    | none => exact paired_error _
    | some name =>
      simp only
      by_cases he : compound.isEmpty
      · rw [if_pos he, if_pos he]
        exact paired_ok rfl
      rw [if_neg he, if_neg he]
      cases BinaryOperator.ofText? compound with
      | some op => exact paired_ok rfl
      | none => exact paired_error _

mutual

theorem paired_expression (casing : Casing) (isLocal : String → Bool) :
    ∀ e : Expression, Paired (Recased casing) ((⟨.identity, isLocal⟩ : Naming).expression e)
      ((⟨casing, isLocal⟩ : Naming).expression e)
  | .name name _ => paired_ok (recase_resolve casing isLocal name)
  | .member object name _ => by
    rw [Naming.expression, Naming.expression]
    refine (paired_expression casing isLocal object).bind fun e _ h => ?_
    rw [h]
    exact paired_ok rfl
  | .literal raw => by
    rw [Naming.expression, Naming.expression]
    cases literalValue? raw with
    | some v => exact paired_ok rfl
    | none => exact paired_error _
  | .call callee arguments => by
    rw [Naming.expression, Naming.expression]
    refine (paired_expressions casing isLocal arguments).bind fun es _ h => ?_
    rw [h]
    cases callee with
    | name name _ =>
      simp only
      by_cases hl : isLocal name = true
      · rw [if_pos hl, if_pos hl]
        exact paired_error _
      · rw [if_neg hl, if_neg hl]
        exact paired_ok rfl
    | member object name _ =>
      refine (paired_expression casing isLocal object).bind fun e _ h => ?_
      rw [h]
      exact paired_ok rfl
    | _ => exact paired_error _
  | .index target key => by
    rw [Naming.expression, Naming.expression]
    refine (paired_expression casing isLocal target).bind fun e _ h => ?_
    refine (paired_expression casing isLocal key).bind fun e' _ h' => ?_
    rw [h, h']
    exact paired_ok rfl
  | .array items => by
    rw [Naming.expression, Naming.expression]
    refine (paired_expressions casing isLocal items).bind fun es _ h => ?_
    rw [h]
    exact paired_ok rfl
  | .unary op fixity operand => by
    rw [Naming.expression, Naming.expression]
    cases UnaryOperator.ofText? op with
    | some op =>
      refine (paired_expression casing isLocal operand).bind fun e _ h => ?_
      rw [h]
      exact paired_ok rfl
    | none =>
      cases Step.ofText? op with
      | some step => exact paired_update casing isLocal step fixity operand
      | none => exact paired_error _
  | .binary left op right => by
    rw [Naming.expression, Naming.expression]
    refine (paired_expression casing isLocal right).bind fun e _ h => ?_
    rw [h]
    cases BinaryOperator.ofText? op with
    | some op =>
      refine (paired_expression casing isLocal left).bind fun e' _ h' => ?_
      rw [h']
      exact paired_ok rfl
    | none => exact paired_assignment casing isLocal left op e
  | .conditional test whenTrue whenFalse => by
    rw [Naming.expression, Naming.expression]
    refine (paired_expression casing isLocal test).bind fun e _ h => ?_
    refine (paired_expression casing isLocal whenTrue).bind fun e₁ _ h₁ => ?_
    refine (paired_expression casing isLocal whenFalse).bind fun e₂ _ h₂ => ?_
    rw [h, h₁, h₂]
    exact paired_ok rfl

theorem paired_expressions (casing : Casing) (isLocal : String → Bool) :
    ∀ es : List Expression, Paired (fun a b => b = Expr.recaseAll casing a)
      ((⟨.identity, isLocal⟩ : Naming).expressions es) ((⟨casing, isLocal⟩ : Naming).expressions es)
  | [] => paired_ok rfl
  | e :: es => by
    rw [Naming.expressions, Naming.expressions]
    refine (paired_expression casing isLocal e).bind fun e' _ h => ?_
    refine (paired_expressions casing isLocal es).bind fun es' _ h' => ?_
    rw [h, h']
    exact paired_ok rfl

end

/-! ## Segments -/

/-- the second operations are the first ones, renamed -/
def RecasedOps (casing : Casing) (ops : List (SitedOp .identity)) (ops' : List (SitedOp casing)) : Prop :=
  SitedOp.eraseAll ops' = Op.recaseAll casing (SitedOp.eraseAll ops)

variable {casing : Casing} {names : Names}

theorem recasedOps_nil : RecasedOps casing [] [] := rfl

theorem RecasedOps.append {ops more : List (SitedOp .identity)} {ops' more' : List (SitedOp casing)}
    (h : RecasedOps casing ops ops') (h' : RecasedOps casing more more') :
    RecasedOps casing (ops ++ more) (ops' ++ more') := by
  rw [RecasedOps, eraseAll_append, eraseAll_append, Op.recaseAll_append, h, h']

theorem RecasedOps.cons {op : SitedOp .identity} {op' : SitedOp casing} {ops : List (SitedOp .identity)}
    {ops' : List (SitedOp casing)} (h : op'.erase = op.erase.recase casing) (h' : RecasedOps casing ops ops') :
    RecasedOps casing (op :: ops) (op' :: ops') := by
  rw [RecasedOps, SitedOp.eraseAll, SitedOp.eraseAll, Op.recaseAll, h, h']

/-- an operation alone -/
theorem recasedOps_single {op : SitedOp .identity} {op' : SitedOp casing} (h : op'.erase = op.erase.recase casing) :
    RecasedOps casing [op] [op'] :=
  recasedOps_nil.cons h

/-- a body -/
theorem RecasedOps.pack {ops : List (SitedOp .identity)} {ops' : List (SitedOp casing)} (h : RecasedOps casing ops ops') :
    Op.pack [] (SitedOp.eraseAll ops') = Op.recaseAll casing (Op.pack [] (SitedOp.eraseAll ops)) := by
  rw [Op.recaseAll_pack, h, Op.recaseAll]

/-- a branch whose test and bodies are renamed -/
theorem recase_branch {test : Site .identity} {test' : Site casing} {whenTrue whenFalse : List (SitedOp .identity)}
    {whenTrue' whenFalse' : List (SitedOp casing)} (h : Recased casing test.expr test'.expr)
    (h₁ : RecasedOps casing whenTrue whenTrue') (h₂ : RecasedOps casing whenFalse whenFalse') :
    (SitedOp.branch test' whenTrue' whenFalse').erase = (SitedOp.branch test whenTrue whenFalse).erase.recase casing := by
  rw [SitedOp.erase, SitedOp.erase, h, h₁.pack, h₂.pack, Op.recase]

theorem paired_site (casing : Casing) (names : Names) (e : Expression) :
    Paired (fun s s' => Recased casing s.expr s'.expr) (site .identity names e) (site casing names e) := by
  have h : Paired (Recased casing) ((names.naming .identity).expression e) ((names.naming casing).expression e) :=
    paired_expression casing names.isDeclared e
  cases hi : (names.naming .identity).expression e with
  | ok x =>
    cases hc : (names.naming casing).expression e with
    | ok x' => rw [hi, hc] at h; rw [site_of_ok hi, site_of_ok hc]; exact h
    | error c => rw [hi, hc] at h; exact h.elim
  | error c =>
    cases hc : (names.naming casing).expression e with
    | ok x' => rw [hi, hc] at h; exact h.elim
    | error c' => rw [hi, hc] at h; rw [site_of_error hi, site_of_error hc]; exact h

theorem paired_siteOption (casing : Casing) (names : Names) (e : Option Expression) :
    Paired (fun s s' => s'.map Site.expr = (s.map Site.expr).map (·.recase casing)) (siteOption .identity names e)
      (siteOption casing names e) := by
  cases e with
  | none => exact paired_ok rfl
  | some e =>
    refine (paired_site casing names e).bind fun s s' h => ?_
    exact paired_ok (congrArg some h)

theorem paired_part (casing : Casing) (names : Names) (part : ValuePart) :
    Paired (fun op op' => op'.erase = op.erase.recase casing) (sitedPart .identity names part)
      (sitedPart casing names part) := by
  cases part with
  | text s => exact paired_ok rfl
  | inline i =>
    refine (paired_site casing names i.expression).bind fun s s' h => ?_
    refine paired_ok ?_
    rw [SitedOp.erase, SitedOp.erase, h, Op.recase, AttributePart.recase]

theorem paired_parts (casing : Casing) (names : Names) (parts : List ValuePart) :
    Paired (RecasedOps casing) (sitedParts .identity names parts) (sitedParts casing names parts) := by
  induction parts with
  | nil => exact paired_ok rfl
  | cons part parts ih =>
    refine (paired_part casing names part).bind fun op op' h => ?_
    exact ih.bind fun ops ops' h' => paired_ok (h'.cons h)

theorem paired_attribute (casing : Casing) (names : Names) (a : Attribute) :
    Paired (RecasedOps casing) (sitedAttribute .identity names a) (sitedAttribute casing names a) := by
  unfold sitedAttribute
  cases a.quote with
  | none => exact paired_ok rfl
  | some quote =>
    simp only
    by_cases hv : a.values.any ValuePart.isInline = true
    · rw [if_pos hv, if_pos hv]
      refine (paired_parts casing names a.values).bind fun ops ops' h => ?_
      exact paired_ok ((h.append (recasedOps_single rfl)).cons rfl)
    · rw [if_neg hv, if_neg hv]
      exact paired_ok rfl

theorem paired_attributes (casing : Casing) (names : Names) (as : List Attribute) :
    Paired (RecasedOps casing) (sitedAttributes .identity names as) (sitedAttributes casing names as) := by
  induction as with
  | nil => exact paired_ok rfl
  | cons a as ih =>
    refine (paired_attribute casing names a).bind fun ops ops' h => ?_
    exact ih.bind fun more more' h' => paired_ok (h.append h')

theorem paired_tag (casing : Casing) (names : Names) (tag : Tag) :
    Paired (RecasedOps casing) (sitedTag .identity names tag) (sitedTag casing names tag) := by
  refine (paired_attributes casing names tag.attributes).bind fun ops ops' h => ?_
  exact paired_ok ((h.append (recasedOps_single rfl)).cons rfl)

/-- renamed operations, with the same names declared behind them -/
def RecasedUnder (casing : Casing) (r : List (SitedOp .identity) × Names) (r' : List (SitedOp casing) × Names) : Prop :=
  RecasedOps casing r.1 r'.1 ∧ r'.2 = r.2

mutual

/-- **Lowering a segment under a casing is lowering it with its names as written, and renaming.** -/
theorem paired_sited (casing : Casing) (names : Names) :
    ∀ s : Segment, Paired (RecasedUnder casing) (sited .identity names s) (sited casing names s)
  | .text s => by
    rw [sited, sited]
    exact paired_ok ⟨rfl, rfl⟩
  | .element tag children close => by
    rw [sited, sited]
    refine (paired_tag casing names tag).bind fun head head' h => ?_
    refine (paired_sitedAll casing names children).bind fun r r' h' => ?_
    exact paired_ok ⟨h.append ((h'.1.append (recasedOps_single rfl)).cons rfl), h'.2⟩
  | .emptyElement tag closing => by
    rw [sited, sited]
    refine (paired_tag casing names tag).bind fun head head' h => ?_
    exact paired_ok ⟨h.append (recasedOps_single rfl), rfl⟩
  | .htmlComment leading s => by
    rw [sited, sited]
    exact paired_ok ⟨rfl, rfl⟩
  | .docType leading d => by
    rw [sited, sited]
    exact paired_ok ⟨rfl, rfl⟩
  | .inline i => by
    rw [sited, sited]
    refine (paired_site casing names i.expression).bind fun s s' h => ?_
    refine paired_ok ⟨(recasedOps_single ?_).cons rfl, rfl⟩
    rw [SitedOp.erase, SitedOp.erase, h, Op.recase]
  | .block ss => by
    rw [sited, sited]
    exact paired_sitedAll casing names ss
  | .declaration d => by
    rw [sited, sited]
    refine (paired_siteOption casing names d.init).bind fun s s' h => ?_
    refine paired_ok ⟨recasedOps_single ?_, rfl⟩
    rw [SitedOp.erase, SitedOp.erase, h, Op.recase]
  | .branch test ss otherwise => by
    rw [sited, sited]
    refine (paired_site casing names test).bind fun s s' h => ?_
    refine (paired_sitedAll casing names.nest ss).bind fun r r' h₁ => ?_
    refine (paired_sitedAlternative casing names otherwise).bind fun ops ops' h₂ => ?_
    exact paired_ok ⟨recasedOps_single (recase_branch h h₁.1 h₂), rfl⟩
  | .loop counter condition iteration ss => by
    rw [sited, sited]
    refine (paired_siteOption casing names.nest counter.init).bind fun s s' h => ?_
    refine (paired_site casing _ condition).bind fun t t' ht => ?_
    refine (paired_site casing _ iteration).bind fun i i' hi => ?_
    refine (paired_sitedAll casing _ ss).bind fun r r' hr => ?_
    refine paired_ok ⟨recasedOps_single ?_, rfl⟩
    rw [SitedOp.erase, SitedOp.erase, h, ht, hi, hr.1.pack, Op.recase]
  | .each item collection ss => by
    rw [sited, sited]
    refine (paired_site casing names collection).bind fun s s' h => ?_
    refine (paired_sitedAll casing _ ss).bind fun r r' hr => ?_
    refine paired_ok ⟨recasedOps_single ?_, rfl⟩
    rw [SitedOp.erase, SitedOp.erase, h, hr.1.pack, Op.recase]
  | .action a => by
    rw [sited, sited]
    refine (paired_site casing names a).bind fun s s' h => ?_
    refine paired_ok ⟨recasedOps_single ?_, rfl⟩
    rw [SitedOp.erase, SitedOp.erase, h, Op.recase]
  | .helper _ parameters ss => by
    rw [sited, sited]
    exact (paired_sitedAll casing _ ss).bind fun _ _ _ => paired_ok ⟨rfl, rfl⟩
  | .namedSection _ ss => by
    rw [sited, sited]
    exact (paired_sitedAll casing _ ss).bind fun _ _ _ => paired_ok ⟨rfl, rfl⟩
  | .comment _ => by
    rw [sited, sited]
    exact paired_ok ⟨rfl, rfl⟩

theorem paired_sitedAll (casing : Casing) (names : Names) :
    ∀ ss : List Segment, Paired (RecasedUnder casing) (sitedAll .identity names ss) (sitedAll casing names ss)
  | [] => by
    rw [sitedAll, sitedAll]
    exact paired_ok ⟨rfl, rfl⟩
  | s :: ss => by
    rw [sitedAll, sitedAll]
    refine (paired_sited casing names s).bind ?_
    rintro ⟨ops, after⟩ ⟨ops', _⟩ ⟨h, rfl⟩
    refine (paired_sitedAll casing _ ss).bind fun r r' h' => ?_
    exact paired_ok ⟨h.append h'.1, h'.2⟩

theorem paired_sitedAlternative (casing : Casing) (names : Names) :
    ∀ a : Alternative, Paired (RecasedOps casing) (sitedAlternative .identity names a) (sitedAlternative casing names a)
  | .nothing => by
    rw [sitedAlternative, sitedAlternative]
    exact paired_ok rfl
  | .elseBranch test ss otherwise | .both test ss otherwise _ => by
    rw [sitedAlternative, sitedAlternative]
    refine (paired_site casing names test).bind fun s s' h => ?_
    refine (paired_sitedAll casing names.nest ss).bind fun r r' h₁ => ?_
    refine (paired_sitedAlternative casing names otherwise).bind fun ops ops' h₂ => ?_
    exact paired_ok (recasedOps_single (recase_branch h h₁.1 h₂))
  | .elseBody ss => by
    rw [sitedAlternative, sitedAlternative]
    exact (paired_sitedAll casing names.nest ss).bind fun _ _ h => paired_ok h.1

end

/-- a body under a casing is the body with its names as written, renamed -/
theorem recase_fragment (casing : Casing) (d : Declared) : d.fragment casing = (d.fragment .identity).recase casing := by
  have h := paired_sitedAll casing (.ofLocals d.parameters) d.body
  unfold Declared.fragment Declared.sited Fragment.recase SitedOp.program
  cases hi : sitedAll .identity (.ofLocals d.parameters) d.body with
  | ok r =>
    cases hc : sitedAll casing (.ofLocals d.parameters) d.body with
    | ok r' => rw [hi, hc] at h; simp only [h.1.pack]
    | error c => rw [hi, hc] at h; exact h.elim
  | error c =>
    cases hc : sitedAll casing (.ofLocals d.parameters) d.body with
    | ok r' => rw [hi, hc] at h; exact h.elim
    | error c' => rfl

end Generation

end TemplateView
