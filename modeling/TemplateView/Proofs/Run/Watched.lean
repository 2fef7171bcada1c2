/-
Runs under watch. A watched run evaluates an expression only if the names in its scopes are those that were declared
where the expression was lowered, and else ends in an alarm. `sited_unseen` says that for lowered segments the alarm is
never raised: a watched run is the run itself, from every state whose scopes hold the declared names, and it never misses
a variable.

Names are compared as sets. The scopes themselves need not correspond: what follows an `else if` runs in a scope that the
generator does not have, which is empty and stays so.
-/
import TemplateView.Proofs.Generation.Lowered
import TemplateView.Proofs.Run.Alike
import TemplateView.Proofs.Run.Shape

namespace TemplateView

/-! ## Names in scopes -/

/-- the declared names of all scopes -/
def Names.all (n : Names) : List String := n.scope ++ n.outer.flatten

/-- the names of all variables -/
def Scopes.names (s : Scopes) : List String := s.flatMap Table.keys

/-- the variables in the scopes are those that are declared -/
def Names.Agrees (n : Names) (s : Scopes) : Prop := ∀ name, name ∈ s.names ↔ name ∈ n.all

instance (n : Names) (s : Scopes) : Decidable (n.Agrees s) :=
  decidable_of_iff ((∀ name ∈ s.names, name ∈ n.all) ∧ ∀ name ∈ n.all, name ∈ s.names)
    ⟨fun h name => ⟨h.1 name, h.2 name⟩, fun h => ⟨fun name => (h name).1, fun name => (h name).2⟩⟩

theorem Names.mem_all {n : Names} {name : String} : name ∈ n.all ↔ n.isDeclared name = true := by
  simp [all, isDeclared, List.mem_flatten]

theorem Scopes.mem_names {s : Scopes} {name : String} : name ∈ s.names ↔ s.shape.any (· name) = true := by
  simp [names, shape, List.any_map, List.any_eq_true, List.mem_flatMap, Table.mem_keys]

/-- a bare name is lowered to a local exactly if there is such a variable when it is looked at -/
theorem resolve_eq_local_iff {casing : Casing} {n : Names} {s : Scopes} (h : n.Agrees s) (name : String) :
    (n.naming casing).resolve name = .local name ↔ name ∈ s.names := by
  rw [h name, Names.mem_all]
  unfold Generation.Naming.resolve
  constructor
  · intro hr
    split at hr
    · assumption
    · split at hr <;> cases hr
  · exact fun hd => if_pos hd

/-! ## Watched runs -/

open Execution

variable {casing : Casing}

/-- the value of an expression, or an alarm if the variables are not those declared at its site -/
def Site.eval (alarm : Halt) (env : Surroundings) (s : Site casing) : Execution Value := do
  if s.names.Agrees (← get).scopes then s.expr.eval env else throw alarm

def Site.evalOption (alarm : Halt) (env : Surroundings) : Option (Site casing) → Execution Value
  | none => return .null
  | some s => s.eval alarm env

def Site.holds (alarm : Halt) (env : Surroundings) (s : Site casing) : Execution Bool := do
  return (← s.eval alarm env).isTruthy

mutual

/-- the effect of an operation under watch -/
def SitedOp.exec (alarm : Halt) (env : Surroundings) : SitedOp casing → Execution Unit
  | .text s => write s
  | .emit value => do
    let v ← value.eval alarm env
    write v.escaped
  | .beginAttribute opening => modify fun r => { r with pending := some ⟨opening, []⟩ }
  | .attributeText s => modify (·.addPart s)
  | .attributeValue value => do
    let v ← value.eval alarm env
    modify (·.addPart (if v.isTruthy then v.escaped else ""))
  | .endAttribute closing => modify (·.closeAttribute closing)
  | .declare name init => do
    let v ← Site.evalOption alarm env init
    changeScopes (·.declare name v)
  | .eval value => do
    let _ ← value.eval alarm env
  | .branch test whenTrue whenFalse => do
    if ← test.holds alarm env then inScope (SitedOp.execAll alarm env whenTrue)
    else inScope (SitedOp.execAll alarm env whenFalse)
  | .loop counter init condition iteration body =>
    inScope do
      let v ← Site.evalOption alarm env init
      changeScopes (·.declare counter v)
      repeatWhile (condition.holds alarm env) (do
        inScope (SitedOp.execAll alarm env body)
        let _ ← iteration.eval alarm env) env.steps
  | .each item collection body => do
    let v ← collection.eval alarm env
    let items ← ofResult v.iterate
    items.forM fun v => inScope do
      changeScopes (·.declare item v)
      SitedOp.execAll alarm env body

def SitedOp.execAll (alarm : Halt) (env : Surroundings) : List (SitedOp casing) → Execution Unit
  | [] => return ()
  | op :: ops => do
    op.exec alarm env
    SitedOp.execAll alarm env ops

end

/-! ## Fitting scopes -/

/-- the variables are those declared, and there is a scope to declare more in -/
structure Names.Fits (n : Names) (s : Scopes) : Prop where
  agrees : n.Agrees s
  nonempty : s ≠ []

namespace Names

variable {n : Names} {s s' : Scopes}

theorem Fits.shape (h : n.Fits s) (hs : s'.shape = s.shape) : n.Fits s' where
  agrees := fun name => by rw [Scopes.mem_names, hs, ← Scopes.mem_names]; exact h.agrees name
  nonempty := by
    have hl := Scopes.length_of_shape hs
    intro he
    subst he
    exact h.nonempty (List.eq_nil_of_length_eq_zero hl.symm)

theorem Fits.declare (h : n.Fits s) (name : String) (v : Value) : (n.declare name).Fits (s.declare name v) := by
  obtain ⟨h, hne⟩ := h
  cases s with
  | nil => exact absurd rfl hne
  | cons t ts =>
    refine ⟨fun other => ?_, nofun⟩
    have ho := h other
    rw [mem_all, Scopes.mem_names] at ho ⊢
    simp only [Scopes.shape, List.map_cons, List.any_cons, Scopes.declare, Table.contains_insert,
      isDeclared_declare, Bool.or_eq_true, beq_iff_eq, or_assoc] at ho ⊢
    rw [ho]

theorem Fits.enter (h : n.Fits s) : n.nest.Fits s.enter := by
  refine ⟨fun name => ?_, nofun⟩
  have hn := h.agrees name
  rw [mem_all, Scopes.mem_names] at hn ⊢
  rw [isDeclared_nest, ← hn]
  simp [Scopes.shape, Scopes.enter, Table.contains]

/-- a scope that no declaration opened makes no difference -/
theorem Fits.enter_same (h : n.Fits s) : n.Fits s.enter :=
  ⟨h.enter.agrees, nofun⟩

theorem isDeclared_ofLocals (locals : List String) (name : String) :
    (ofLocals locals).isDeclared name = locals.contains name := by
  have key : ∀ (ls : List String) (n : Names),
      (ls.foldl declare n).isDeclared name = (n.isDeclared name || ls.contains name) := by
    intro ls
    induction ls with
    | nil => simp
    | cons l ls ih =>
      intro n
      rw [List.foldl_cons, ih, isDeclared_declare, List.contains_cons, Bool.or_assoc, Bool.or_left_comm]
  exact key locals empty

/-- the variables of a call are the parameters -/
theorem fits_arguments (parameters : List String) (arguments : List Value) :
    (ofLocals parameters).Fits
      [Table.ofList (parameters.zip (arguments ++ List.replicate parameters.length .null))] := by
  refine ⟨fun name => ?_, nofun⟩
  have hl : parameters.length ≤ (arguments ++ List.replicate parameters.length Value.null).length := by
    rw [List.length_append, List.length_replicate]
    omega
  rw [mem_all, isDeclared_ofLocals, Scopes.mem_names]
  simp only [Scopes.shape, List.map_cons, List.map_nil, List.any_cons, List.any_nil, Bool.or_false]
  rw [Table.contains_ofList, List.map_fst_zip hl]

end Names

/-- declared locals are variables of fitting scopes -/
theorem Expr.Every.bound {E : Halt → Prop} {n : Names} {s : Scopes} (hf : n.Fits s) {e : Expr}
    (h : e.Every (Expr.Lowered n.isDeclared fun _ => True)) : e.Every (Expr.Bound E s.shape) := by
  have key : ∀ name, n.isDeclared name = true → s.shape.any (· name) = true := by
    intro name hn
    rw [← Scopes.mem_names, hf.agrees name, Names.mem_all]
    exact hn
  refine Expr.Every.mono (fun x hx => ?_) e h
  cases x <;> first | exact Or.inl (key _ hx) | trivial

/-! ## No alarm -/

variable {env : Surroundings} {r : Run} {names : Names}

/-- two steps are alike where the scopes fit, and the scopes fit again behind them; no variable is missed -/
abbrev Execution.AlikeAt {α : Type} (names names' : Names) (m m' : Execution α) : Prop :=
  ∀ r : Run, names.Fits r.scopes → Alike Halt.Defined (fun _ r' => names'.Fits r'.scopes) m m' r

theorem alikeAt_bind {α β : Type} {names₁ names₂ : Names} {m m' : Execution α} {f f' : α → Execution β}
    (hm : AlikeAt names names₁ m m') (hf : ∀ a, AlikeAt names₁ names₂ (f a) (f' a)) :
    AlikeAt names names₂ (m >>= f) (m' >>= f') :=
  fun r hr => alike_bind (hm r hr) fun a r₁ h₁ => hf a r₁ h₁

theorem alikeAt_pure {α : Type} (a : α) : AlikeAt names names (pure a : Execution α) (pure a) :=
  fun _ hr => alike_refl (ends_pure hr)

theorem alikeAt_declare (name : String) (v : Value) :
    AlikeAt names (names.declare name) (changeScopes (·.declare name v)) (changeScopes (·.declare name v)) :=
  fun _ hr => alike_refl (ends_modify (hr.declare name v))

/-- a step that leaves the scopes alone -/
theorem alikeAt_modify {f : Run → Run} (h : ∀ r, (f r).scopes = r.scopes) :
    AlikeAt names names (modify f : Execution Unit) (modify f) :=
  fun r hf => alike_refl (ends_modify (by rw [h]; exact hf))

theorem alikeAt_write (s : String) : AlikeAt names names (write s) (write s) := alikeAt_modify fun _ => rfl

theorem ends_site (henv : env.Reports Halt.Defined) {source : Expression} {s : Site casing}
    (h : Generation.site casing names source = .ok s) (hf : names.Fits r.scopes) :
    Ends Halt.Defined (fun _ r' => names.Fits r'.scopes) (s.expr.eval env) r := by
  have hl := Generation.lowered_expression (Generation.of_site h).2 (Event.calls_any _)
  exact (shape_eval henv s.expr r (hl.bound hf)).mono fun _ _ => hf.shape

/-- an expression is evaluated as lowered, since the scopes hold the names of its site -/
theorem alike_site (henv : env.Reports Halt.Defined) (alarm : Halt) {source : Expression} {s : Site casing}
    (h : Generation.site casing names source = .ok s) :
    AlikeAt names names (s.eval alarm env) (s.expr.eval env) := by
  intro r hf
  refine ⟨?_, ends_site henv h hf⟩
  show (if s.names.Agrees r.scopes then s.expr.eval env else throw alarm) r = s.expr.eval env r
  rw [(Generation.of_site h).1, if_pos hf.agrees]

theorem alike_siteOption (henv : env.Reports Halt.Defined) (alarm : Halt) {source : Option Expression}
    {s : Option (Site casing)} (h : Generation.siteOption casing names source = .ok s) :
    AlikeAt names names (Site.evalOption alarm env s) (Expr.evalOption env (s.map Site.expr)) := by
  cases source with
  | none => cases h; exact fun r hf => alike_refl (ends_pure hf)
  | some e =>
    simp only [Generation.siteOption, Generation.bind_eq_ok] at h
    obtain ⟨st, hst, ⟨⟩⟩ := h
    exact alike_site henv alarm hst

theorem alike_holds (henv : env.Reports Halt.Defined) (alarm : Halt) {source : Expression} {s : Site casing}
    (h : Generation.site casing names source = .ok s) :
    AlikeAt names names (s.holds alarm env) (s.expr.holds env) :=
  alikeAt_bind (alike_site henv alarm h) fun _ => alikeAt_pure _

/-- a body of its own leaves the scopes fitting as they were -/
theorem alike_scope {m m' : Execution Unit} {inner : Names} (after : Names) (hb : ∀ r, KeepsBelow m' r)
    (h : AlikeAt inner after m m') (hi : ∀ s, names.Fits s → inner.Fits s.enter) :
    AlikeAt names names (inScope m) (inScope m') := by
  intro r hf
  have hin : Alike Halt.Defined (fun _ _ => True) (inScope m) (inScope m') r :=
    alike_inScope ((h { r with scopes := r.scopes.enter } (hi _ hf)).mono fun _ _ _ => trivial)
  exact ⟨hin.same, (hin.ends.and (shape_inScope hb r)).mono fun _ _ h => hf.shape h.2⟩

/-! ## Tags -/

theorem execAll_watched_append (alarm : Halt) (ops more : List (SitedOp casing)) :
    SitedOp.execAll alarm env (ops ++ more) =
      (SitedOp.execAll alarm env ops >>= fun _ => SitedOp.execAll alarm env more) := by
  induction ops with
  | nil => rfl
  | cons op ops ih =>
    have h : SitedOp.execAll alarm env (op :: ops ++ more) =
        (op.exec alarm env >>= fun _ => SitedOp.execAll alarm env (ops ++ more)) := by
      rw [List.cons_append, SitedOp.execAll]
    rw [h, ih, SitedOp.execAll, bind_assoc]

/-- operations under watch run like those without their sites -/
abbrev SitedOp.Unseen (env : Surroundings) (names names' : Names) (ops : List (SitedOp casing)) : Prop :=
  ∀ alarm, AlikeAt names names' (SitedOp.execAll alarm env ops) (Op.execAll env (SitedOp.eraseAll ops))

theorem unseen_nil : SitedOp.Unseen env names names ([] : List (SitedOp casing)) :=
  fun _ _ hf => alike_refl (ends_pure hf)

theorem unseen_append {names₁ names₂ : Names} {ops more : List (SitedOp casing)}
    (h : SitedOp.Unseen env names names₁ ops) (h' : SitedOp.Unseen env names₁ names₂ more) :
    SitedOp.Unseen env names names₂ (ops ++ more) := by
  intro alarm
  rw [execAll_watched_append, Generation.eraseAll_append, execAll_append]
  exact alikeAt_bind (h alarm) fun _ => h' alarm

theorem unseen_singleton {names' : Names} {op : SitedOp casing}
    (h : ∀ alarm, AlikeAt names names' (op.exec alarm env) (op.erase.exec env)) :
    SitedOp.Unseen env names names' [op] := by
  intro alarm
  have h₁ : SitedOp.execAll alarm env [op] = (op.exec alarm env >>= fun _ => pure ()) := by
    rw [SitedOp.execAll]; rfl
  have h₂ : Op.execAll env (SitedOp.eraseAll [op]) = (op.erase.exec env >>= fun _ => pure ()) := by
    rw [SitedOp.eraseAll, Op.execAll]; rfl
  rw [h₁, h₂]
  exact alikeAt_bind (h alarm) fun _ => alikeAt_pure ()

theorem unseen_text (s : String) : SitedOp.Unseen env names names [(.text s : SitedOp casing)] :=
  unseen_singleton fun alarm => by
    rw [SitedOp.exec, SitedOp.erase, Op.exec]
    exact alikeAt_write s

theorem scopes_addPart (part : String) (r : Run) : (r.addPart part).scopes = r.scopes := by
  unfold Run.addPart
  split <;> rfl

theorem scopes_closeAttribute (closing : String) (r : Run) : (r.closeAttribute closing).scopes = r.scopes := by
  unfold Run.closeAttribute
  split <;> rfl

theorem unseen_part (henv : env.Reports Halt.Defined) {part : ValuePart} {op : SitedOp casing}
    (h : Generation.sitedPart casing names part = .ok op) : SitedOp.Unseen env names names [op] := by
  refine unseen_singleton fun alarm => ?_
  cases part with
  | text s =>
    cases h
    rw [SitedOp.exec, SitedOp.erase, Op.exec]
    exact alikeAt_modify (scopes_addPart _)
  | inline i =>
    simp only [Generation.sitedPart, Generation.bind_eq_ok] at h
    obtain ⟨value, hv, ⟨⟩⟩ := h
    rw [SitedOp.exec, SitedOp.erase, Op.exec]
    have hs : (do let s ← AttributePart.shown env (.value value.expr); modify (·.addPart s) : Execution Unit) =
        (value.expr.eval env >>= fun v => modify (·.addPart (if v.isTruthy then v.escaped else ""))) := by
      simp only [AttributePart.shown, bind_assoc, pure_bind]
    rw [hs]
    exact alikeAt_bind (alike_site henv alarm hv) fun v => alikeAt_modify (scopes_addPart _)

theorem unseen_parts (henv : env.Reports Halt.Defined) {parts : List ValuePart} {ops : List (SitedOp casing)}
    (h : Generation.sitedParts casing names parts = .ok ops) : SitedOp.Unseen env names names ops := by
  induction parts generalizing ops with
  | nil => cases h; exact unseen_nil
  | cons part parts ih =>
    simp only [Generation.sitedParts, Generation.bind_eq_ok] at h
    obtain ⟨op, hop, more, hmore, ⟨⟩⟩ := h
    exact unseen_append (unseen_part henv hop) (ih hmore)

theorem unseen_attribute (henv : env.Reports Halt.Defined) {a : Attribute} {ops : List (SitedOp casing)}
    (h : Generation.sitedAttribute casing names a = .ok ops) : SitedOp.Unseen env names names ops := by
  unfold Generation.sitedAttribute at h
  split at h
  · cases h; exact unseen_text _
  · next v hv =>
    split at h
    · simp only [Generation.bind_eq_ok] at h
      obtain ⟨parts, hparts, ⟨⟩⟩ := h
      refine unseen_append (unseen_singleton fun alarm => ?_)
        (unseen_append (unseen_parts henv hparts) (unseen_singleton fun alarm => ?_))
      · rw [SitedOp.exec, SitedOp.erase, Op.exec]
        exact alikeAt_modify fun _ => rfl
      · rw [SitedOp.exec, SitedOp.erase, Op.exec]
        exact alikeAt_modify (scopes_closeAttribute _)
    · cases h; exact unseen_text _

theorem unseen_attributes (henv : env.Reports Halt.Defined) {as : List Attribute} {ops : List (SitedOp casing)}
    (h : Generation.sitedAttributes casing names as = .ok ops) : SitedOp.Unseen env names names ops := by
  induction as generalizing ops with
  | nil => cases h; exact unseen_nil
  | cons a as ih =>
    simp only [Generation.sitedAttributes, Generation.bind_eq_ok] at h
    obtain ⟨ops₁, h₁, ops₂, h₂, ⟨⟩⟩ := h
    exact unseen_append (unseen_attribute henv h₁) (ih h₂)

theorem unseen_tag (henv : env.Reports Halt.Defined) {tag : Tag} {ops : List (SitedOp casing)}
    (h : Generation.sitedTag casing names tag = .ok ops) : SitedOp.Unseen env names names ops := by
  simp only [Generation.sitedTag, Generation.bind_eq_ok] at h
  obtain ⟨as, has, ⟨⟩⟩ := h
  exact unseen_append (unseen_text _) (unseen_append (unseen_attributes henv has) (unseen_text _))

/-! ## Segments -/

/-- a body with a scope of its own, packed where it is not watched -/
theorem alike_body {inner after : Names} {ops : List (SitedOp casing)} (h : SitedOp.Unseen env inner after ops)
    (hi : ∀ s, names.Fits s → inner.Fits s.enter) (alarm : Halt) :
    AlikeAt names names (inScope (SitedOp.execAll alarm env ops))
      (inScope (Op.execAll env (Op.pack [] (SitedOp.eraseAll ops)))) := by
  rw [execAll_packed]
  exact alike_scope after (below_execAll env _) (h alarm) hi

/-- a conditional whose two bodies are bodies of their own -/
theorem unseen_branch (henv : env.Reports Halt.Defined) {source : Expression} {test : Site casing}
    {whenTrue whenFalse : List (SitedOp casing)} (ht : Generation.site casing names source = .ok test)
    (hw : ∀ alarm, AlikeAt names names (inScope (SitedOp.execAll alarm env whenTrue))
      (inScope (Op.execAll env (Op.pack [] (SitedOp.eraseAll whenTrue)))))
    (hf : ∀ alarm, AlikeAt names names (inScope (SitedOp.execAll alarm env whenFalse))
      (inScope (Op.execAll env (Op.pack [] (SitedOp.eraseAll whenFalse))))) :
    SitedOp.Unseen env names names [.branch test whenTrue whenFalse] := by
  refine unseen_singleton fun alarm => ?_
  rw [SitedOp.exec, SitedOp.erase, Op.exec]
  refine alikeAt_bind (alike_holds henv alarm ht) fun b => ?_
  cases b with
  | true => exact hw alarm
  | false => exact hf alarm

mutual

/-- **No alarm is raised.** Under watch, the operations of a segment run as they do without, wherever the variables are
those that the generator had declared before the segment; behind it they are those it has declared then. -/
theorem sited_unseen (henv : env.Reports Halt.Defined) {names : Names} {r : List (SitedOp casing) × Names} :
    ∀ {s : Segment}, Generation.sited casing names s = .ok r → SitedOp.Unseen env names r.2 r.1
  | .text _, h => by rw [Generation.sited] at h; cases h; exact unseen_text _
  | .element tag children close, h => by
    simp only [Generation.sited, Generation.bind_eq_ok] at h
    obtain ⟨head, hhead, ⟨ops, after⟩, hops, ⟨⟩⟩ := h
    exact unseen_append (unseen_tag henv hhead) (unseen_append (unseen_text ">")
      (unseen_append (sitedAll_unseen henv hops) (unseen_text _)))
  | .emptyElement tag closing, h => by
    simp only [Generation.sited, Generation.bind_eq_ok] at h
    obtain ⟨head, hhead, ⟨⟩⟩ := h
    exact unseen_append (unseen_tag henv hhead) (unseen_text _)
  | .htmlComment .., h => by rw [Generation.sited] at h; cases h; exact unseen_text _
  | .docType .., h => by rw [Generation.sited] at h; cases h; exact unseen_text _
  | .inline i, h => by
    simp only [Generation.sited, Generation.bind_eq_ok] at h
    obtain ⟨value, hv, ⟨⟩⟩ := h
    refine unseen_append (unseen_text i.leading) (unseen_singleton fun alarm => ?_)
    rw [SitedOp.exec, SitedOp.erase, Op.exec]
    exact alikeAt_bind (alike_site henv alarm hv) fun v => alikeAt_write v.escaped
  | .block ss, h => by
    rw [Generation.sited] at h
    exact sitedAll_unseen henv h
  | .declaration d, h => by
    simp only [Generation.sited, Generation.bind_eq_ok] at h
    obtain ⟨init, hi, ⟨⟩⟩ := h
    refine unseen_singleton fun alarm => ?_
    rw [SitedOp.exec, SitedOp.erase, Op.exec]
    exact alikeAt_bind (alike_siteOption henv alarm hi) fun v => alikeAt_declare d.name v
  | .branch test ss otherwise, h => by
    simp only [Generation.sited, Generation.bind_eq_ok] at h
    obtain ⟨t, ht, ⟨w, _⟩, hw, f, hf, ⟨⟩⟩ := h
    exact unseen_branch henv ht (alike_body (sitedAll_unseen henv hw) fun _ => Names.Fits.enter)
      (alternative_unseen henv hf)
  | .loop counter condition iteration ss, h => by
    simp only [Generation.sited, Generation.bind_eq_ok] at h
    obtain ⟨init, hi, c, hc, it, hit, ⟨ops, _⟩, hops, ⟨⟩⟩ := h
    refine unseen_singleton fun alarm => ?_
    rw [SitedOp.exec, SitedOp.erase, Op.exec]
    have hb := alike_body (sitedAll_unseen henv hops) (fun _ => Names.Fits.enter) alarm
    refine alike_scope (names.nest.declare counter.name) (below_rounds counter.name _ _ _ (below_execAll env _)) ?_ fun _ => Names.Fits.enter
    refine alikeAt_bind (alike_siteOption henv alarm hi) fun v => alikeAt_bind (alikeAt_declare counter.name v) fun _ => ?_
    refine alike_repeatWhile nofun (alike_holds henv alarm hc) ?_ env.steps
    exact alikeAt_bind hb fun _ => alikeAt_bind (alike_site henv alarm hit) fun _ => alikeAt_pure ()
  | .each item collection ss, h => by
    simp only [Generation.sited, Generation.bind_eq_ok] at h
    obtain ⟨c, hc, ⟨ops, _⟩, hops, ⟨⟩⟩ := h
    refine unseen_singleton fun alarm => ?_
    rw [SitedOp.exec, SitedOp.erase, Op.exec]
    have hi : ∀ v : Value, AlikeAt names names (ofResult v.iterate) (ofResult v.iterate) := fun v r hr =>
      alike_refl (ends_ofResult (fun _ _ => hr) fun _ he => (Value.ofValues_iterate he).defined)
    refine alikeAt_bind (alike_site henv alarm hc) fun v => alikeAt_bind (hi v) fun items => ?_
    refine alike_forM items fun w _ => ?_
    rw [execAll_packed]
    refine alike_scope _ (fun r => below_bind (below_declare item w r) fun _ => below_execAll env _)
      (alikeAt_bind (alikeAt_declare item w) fun _ => sitedAll_unseen henv hops alarm) fun _ => Names.Fits.enter
  | .action a, h => by
    simp only [Generation.sited, Generation.bind_eq_ok] at h
    obtain ⟨value, hv, ⟨⟩⟩ := h
    refine unseen_singleton fun alarm => ?_
    rw [SitedOp.exec, SitedOp.erase, Op.exec]
    exact alikeAt_bind (alike_site henv alarm hv) fun v => alikeAt_pure ()
  | .helper .., h => by
    simp only [Generation.sited, Generation.bind_eq_ok] at h
    obtain ⟨_, -, ⟨⟩⟩ := h
    exact unseen_nil
  | .namedSection .., h => by
    simp only [Generation.sited, Generation.bind_eq_ok] at h
    obtain ⟨_, -, ⟨⟩⟩ := h
    exact unseen_nil
  | .comment _, h => by rw [Generation.sited] at h; cases h; exact unseen_nil

theorem sitedAll_unseen (henv : env.Reports Halt.Defined) {names : Names} {r : List (SitedOp casing) × Names} :
    ∀ {ss : List Segment}, Generation.sitedAll casing names ss = .ok r → SitedOp.Unseen env names r.2 r.1
  | [], h => by rw [Generation.sitedAll] at h; cases h; exact unseen_nil
  | s :: ss, h => by
    simp only [Generation.sitedAll, Generation.bind_eq_ok] at h
    obtain ⟨⟨ops, between⟩, h₁, ⟨more, after⟩, h₂, ⟨⟩⟩ := h
    exact unseen_append (sited_unseen henv h₁) (sitedAll_unseen henv h₂)

/-- what follows the body of an `if`, in the scope that the run gives it -/
theorem alternative_unseen (henv : env.Reports Halt.Defined) {names : Names} {ops : List (SitedOp casing)} :
    ∀ {a : Alternative}, Generation.sitedAlternative casing names a = .ok ops → ∀ alarm,
      AlikeAt names names (inScope (SitedOp.execAll alarm env ops))
        (inScope (Op.execAll env (Op.pack [] (SitedOp.eraseAll ops))))
  | .nothing, h => by
    rw [Generation.sitedAlternative] at h
    cases h
    exact alike_body unseen_nil fun _ => Names.Fits.enter
  | .elseBranch test ss otherwise, h | .both test ss otherwise _, h => by
    simp only [Generation.sitedAlternative, Generation.bind_eq_ok] at h
    obtain ⟨t, ht, ⟨w, _⟩, hw, f, hf, ⟨⟩⟩ := h
    refine alike_body (unseen_branch henv ht ?_ (alternative_unseen henv hf)) fun _ => Names.Fits.enter_same
    exact alike_body (sitedAll_unseen henv hw) fun _ => Names.Fits.enter
  | .elseBody ss, h => by
    simp only [Generation.sitedAlternative, Generation.bind_eq_ok] at h
    obtain ⟨⟨w, _⟩, hw, ⟨⟩⟩ := h
    exact alike_body (sitedAll_unseen henv hw) fun _ => Names.Fits.enter

end

end TemplateView
