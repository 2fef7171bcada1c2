/-
Markup is only ever appended. A run never looks at the markup written so far and takes none of it back, so with more of it
in front a program ends in the same way, with that much more written (`appends_execAll`). A program between texts
therefore writes what it writes alone, between these texts (`run_between`).
-/
import TemplateView.Proofs.Run.Guarded

namespace TemplateView

/-- the run with more markup in front of its own -/
def Run.after (earlier : String) (r : Run) : Run := { r with html := earlier ++ r.html }

namespace Execution

/-- a step that works the same behind more markup -/
def Appends {α : Type} (m : Execution α) : Prop :=
  ∀ (earlier : String) (r : Run), m (r.after earlier) = (m r).map fun p => (p.1, p.2.after earlier)

section

variable {α β : Type} {m : Execution α}

/-! ## Steps -/

theorem appends_pure (a : α) : Appends (pure a : Execution α) := fun _ _ => rfl

theorem appends_bind {f : α → Execution β} (hm : Appends m) (hf : ∀ a, Appends (f a)) : Appends (m >>= f) := by
  intro earlier r
  rw [bind_run, bind_run, hm earlier r]
  cases m r with
  | error e => rfl
  | ok p => exact hf p.1 earlier p.2

/-- a change of the run that is the same behind more markup -/
theorem appends_modify {f : Run → Run} (h : ∀ earlier r, f (Run.after earlier r) = (f r).after earlier) :
    Appends (modify f : Execution Unit) := by
  intro earlier r
  show Except.ok ((), f (r.after earlier)) = .ok ((), (f r).after earlier)
  rw [h]

/-- evaluation writes nothing, and looks at nothing written -/
theorem OnVariables.appends (hm : OnVariables m) : Appends m := by
  intro earlier r
  rw [hm (r.after earlier) r rfl]
  cases h : m r with
  | error e => rfl
  | ok p =>
    obtain ⟨hhtml, hpending⟩ := hm.kept h
    show Except.ok (p.1, p.2.inside (r.after earlier)) = .ok (p.1, p.2.after earlier)
    rw [Run.inside, Run.after, Run.after, hhtml, hpending]

theorem appends_changeScopes (f : Scopes → Scopes) : Appends (changeScopes f) := (onVariables_changeScopes f).appends

theorem appends_write (markup : String) : Appends (write markup) :=
  appends_modify fun earlier r => by
    rw [Run.after, Run.after, String.append_assoc]

theorem appends_addPart (part : String) : Appends (modify (·.addPart part) : Execution Unit) := by
  refine appends_modify fun earlier r => ?_
  unfold Run.addPart
  split <;> rfl

theorem appends_closeAttribute (closing : String) : Appends (modify (·.closeAttribute closing) : Execution Unit) := by
  refine appends_modify fun earlier r => ?_
  obtain ⟨scopes, html, _ | a⟩ := r
  · rfl
  · show (⟨scopes, earlier ++ html ++ Run.attributeText a closing, none⟩ : Run) = ⟨scopes, earlier ++ (html ++ _), none⟩
    rw [String.append_assoc]

theorem appends_inScope {m : Execution Unit} (hm : Appends m) : Appends (inScope m) :=
  appends_bind (appends_changeScopes _) fun _ => appends_bind hm fun _ => appends_changeScopes _

/-! ## Loops -/

theorem appends_repeatWhile {condition : Execution Bool} {body : Execution Unit} (hc : Appends condition)
    (hb : Appends body) (n : Nat) : Appends (repeatWhile condition body n) := by
  induction n with
  | zero => exact fun _ _ => rfl
  | succ n ih =>
    rw [repeatWhile]
    refine appends_bind hc fun holds => ?_
    cases holds with
    | true => exact appends_bind hb fun _ => ih
    | false => exact appends_pure ()

theorem appends_forM {f : β → Execution Unit} (items : List β) (hf : ∀ b, Appends (f b)) : Appends (items.forM f) := by
  induction items with
  | nil => exact appends_pure ()
  | cons b bs ih => exact appends_bind (hf b) fun _ => ih

end

end Execution

open Execution

/-! ## Operations -/

mutual

theorem Op.appends_exec (env : Surroundings) : ∀ op : Op, Appends (op.exec env)
  | .text s => appends_write s
  | .emit value => by
    rw [Op.exec]
    exact appends_bind (Expr.onVariables env value).appends fun _ => appends_write _
  | .beginAttribute opening => appends_modify fun _ _ => rfl
  | .attributePart part => by
    rw [Op.exec]
    exact appends_bind (AttributePart.onVariables env part).appends fun _ => appends_addPart _
  | .endAttribute closing => appends_closeAttribute closing
  | .declare _ init => by
    rw [Op.exec]
    exact appends_bind (Expr.onVariables_option env init).appends fun _ => appends_changeScopes _
  | .eval value => by
    rw [Op.exec]
    exact appends_bind (Expr.onVariables env value).appends fun _ => appends_pure ()
  | .branch test whenTrue whenFalse => by
    rw [Op.exec]
    refine appends_bind (Expr.onVariables_holds env test).appends fun holds => ?_
    cases holds with
    | true => exact appends_inScope (Op.appends_execAll env whenTrue)
    | false => exact appends_inScope (Op.appends_execAll env whenFalse)
  | .loop _ init condition iteration body => by
    rw [Op.exec]
    have hround : Appends (do inScope (Op.execAll env body); let _ ← iteration.eval env) :=
      appends_bind (appends_inScope (Op.appends_execAll env body)) fun _ =>
        appends_bind (Expr.onVariables env iteration).appends fun _ => appends_pure ()
    exact appends_inScope (appends_bind (Expr.onVariables_option env init).appends fun _ =>
      appends_bind (appends_changeScopes _) fun _ =>
        appends_repeatWhile (Expr.onVariables_holds env condition).appends hround env.steps)
  | .each _ collection body => by
    rw [Op.exec]
    refine appends_bind (Expr.onVariables env collection).appends fun v => ?_
    refine appends_bind (onVariables_ofResult v.iterate).appends fun items => appends_forM items fun _ => ?_
    exact appends_inScope (appends_bind (appends_changeScopes _) fun _ => Op.appends_execAll env body)

/-- **Markup is only ever appended.** -/
theorem Op.appends_execAll (env : Surroundings) : ∀ ops : List Op, Appends (Op.execAll env ops)
  | [] => appends_pure ()
  | op :: ops => by
    rw [Op.execAll]
    exact appends_bind (Op.appends_exec env op) fun _ => Op.appends_execAll env ops

end

/-! ## Programs between texts -/

/-- texts are written as one -/
theorem execAll_texts (env : Surroundings) (texts : List String) :
    Op.execAll env (texts.map .text) = write (String.join texts) := by
  induction texts with
  | nil => exact write_empty.symm
  | cons text texts ih => rw [List.map_cons, Op.execAll, ih, String.join_cons, Op.exec, write_append]

variable {casing : Casing}

theorem eraseAll_texts (texts : List String) :
    SitedOp.eraseAll (texts.map (.text : String → SitedOp casing)) = texts.map .text := by
  induction texts with
  | nil => rfl
  | cons text texts ih => rw [List.map_cons, SitedOp.eraseAll, ih, SitedOp.erase, List.map_cons]

/-- **A program between texts writes what it writes alone, between these texts.** If it ends in an error or for want of
steps, so does the program alone. -/
theorem run_between (env : Surroundings) (initial : Table Value) (befores behinds : List String)
    (ops : List (SitedOp casing)) :
    (SitedOp.program (befores.map .text ++ (ops ++ behinds.map .text))).run env initial =
      ((SitedOp.program ops).run env initial).map fun html => String.join befores ++ html ++ String.join behinds := by
  show html initial _ = (html initial _).map _
  rw [SitedOp.program, SitedOp.program, execAll_packed, execAll_packed, Generation.eraseAll_append, Generation.eraseAll_append,
    eraseAll_texts, eraseAll_texts, execAll_append, execAll_append, execAll_texts, execAll_texts, html_eq, html_eq]
  have hfirst : (write (String.join befores) : Execution Unit) { Run.start with scopes := [initial] } =
      .ok ((), Run.after (String.join befores) { Run.start with scopes := [initial] }) := by
    show Except.ok ((), (⟨_, "" ++ _, _⟩ : Run)) = .ok ((), ⟨_, _ ++ "", _⟩)
    rw [String.empty_append, String.append_empty]
  rw [bind_run, hfirst]
  show (((Op.execAll env (SitedOp.eraseAll ops) >>= fun _ => write (String.join behinds)) (Run.after _ _)).map _) = _
  rw [bind_run, Op.appends_execAll]
  cases Op.execAll env (SitedOp.eraseAll ops) { Run.start with scopes := [initial] } <;> rfl

end TemplateView
