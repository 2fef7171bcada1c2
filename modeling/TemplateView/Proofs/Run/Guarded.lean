/-
Runs on guard for attributes. A guarded run ends in an alarm when an operation that belongs inside an attribute finds
none open, and when any other operation finds one open. `guarded_eq` says that for programs in normal form the alarm is
never raised: no part of an attribute is dropped for want of an open one, and no attribute under way is ever overwritten.
-/
import TemplateView.Proofs.Generation.Normal
import TemplateView.Proofs.Run.Alike
import TemplateView.Proofs.Run.Frame

namespace TemplateView

open Execution

/-! ## Guarded runs -/

/-- goes on where an attribute is open, or where none is -/
def Execution.check (alarm : Halt) (isOpen : Bool) : Execution Unit := do
  if (← get).pending.isSome = isOpen then return () else throw alarm

mutual

/-- the effect of an operation on guard; a part looks for its attribute when it has its text -/
def Op.guarded (alarm : Halt) (env : Surroundings) : Op → Execution Unit
  | .attributePart part => do
    let s ← part.shown env
    check alarm true
    modify (·.addPart s)
  | .endAttribute closing => do
    check alarm true
    modify (·.closeAttribute closing)
  | .branch test whenTrue whenFalse => do
    check alarm false
    if ← test.holds env then inScope (Op.guardedAll alarm env whenTrue)
    else inScope (Op.guardedAll alarm env whenFalse)
  | .loop counter init condition iteration body => do
    check alarm false
    inScope do
      let v ← Expr.evalOption env init
      changeScopes (·.declare counter v)
      repeatWhile (condition.holds env) (do
        inScope (Op.guardedAll alarm env body)
        let _ ← iteration.eval env) env.steps
  | .each item collection body => do
    check alarm false
    let v ← collection.eval env
    let items ← ofResult v.iterate
    items.forM fun v => inScope do
      changeScopes (·.declare item v)
      Op.guardedAll alarm env body
  | op => do
    check alarm false
    op.exec env

def Op.guardedAll (alarm : Halt) (env : Surroundings) : List Op → Execution Unit
  | [] => return ()
  | op :: ops => do
    op.guarded alarm env
    Op.guardedAll alarm env ops

end

/-! ## No alarm -/

variable {env : Surroundings}

/-- two steps are alike where an attribute is open, or none is, and leave it so or otherwise -/
abbrev Execution.AlikeOpen {α : Type} (before after : Bool) (m m' : Execution α) : Prop :=
  ∀ r : Run, r.pending.isSome = before → Alike (fun _ => True) (fun _ r' => r'.pending.isSome = after) m m' r

theorem alikeOpen_bind {α β : Type} {b₀ b₁ b₂ : Bool} {m m' : Execution α} {f f' : α → Execution β}
    (hm : AlikeOpen b₀ b₁ m m') (hf : ∀ a, AlikeOpen b₁ b₂ (f a) (f' a)) : AlikeOpen b₀ b₂ (m >>= f) (m' >>= f') :=
  fun r hr => alike_bind (hm r hr) fun a r₁ h₁ => hf a r₁ h₁

theorem alikeOpen_pure {α : Type} {b : Bool} (a : α) : AlikeOpen b b (pure a : Execution α) (pure a) :=
  fun _ hr => alike_refl (ends_pure hr)

theorem alikeOpen_modify {b b' : Bool} {f : Run → Run} (h : ∀ r : Run, r.pending.isSome = b → (f r).pending.isSome = b') :
    AlikeOpen b b' (modify f : Execution Unit) (modify f) :=
  fun r hr => alike_refl (ends_modify (h r hr))

/-- the check lets pass what is as it expects -/
theorem alikeOpen_check {α : Type} {b b' : Bool} {m m' : Execution α} (alarm : Halt) (h : AlikeOpen b b' m m') :
    AlikeOpen b b' (do check alarm b; m) m' := by
  intro r hr
  have hg : (do check alarm b; m : Execution α) r = m r := by
    rw [bind_run, check, bind_run, get_run]
    simp only [hr, if_true]
    rfl
  exact ⟨hg.trans (h r hr).same, (h r hr).ends⟩

theorem alikeOpen_inScope {b b' : Bool} {m m' : Execution Unit} (h : AlikeOpen b b' m m') :
    AlikeOpen b b' (inScope m) (inScope m') :=
  fun r hr => alike_inScope (h { r with scopes := r.scopes.enter } hr)

/-- evaluation opens and closes no attribute -/
theorem Execution.OnVariables.alikeOpen {α : Type} {m : Execution α} (hm : OnVariables m) (b : Bool) :
    AlikeOpen b b m m := by
  refine fun r hr => alike_refl ?_
  unfold Ends
  cases h : m r with
  | ok p => show p.2.pending.isSome = b; rw [(hm.kept h).2, hr]
  | error e => trivial

theorem Expr.onVariables_option (env : Surroundings) (e : Option Expr) : OnVariables (Expr.evalOption env e) := by
  cases e with
  | none => exact onVariables_pure _
  | some e => exact Expr.onVariables env e

theorem Expr.onVariables_holds (env : Surroundings) (e : Expr) : OnVariables (e.holds env) :=
  onVariables_bind (Expr.onVariables env e) fun _ => onVariables_pure _

theorem AttributePart.onVariables (env : Surroundings) (part : AttributePart) : OnVariables (part.shown env) := by
  cases part with
  | text s => exact onVariables_pure _
  | value e => exact onVariables_bind (Expr.onVariables env e) fun _ => onVariables_pure _

namespace Op

/-- operations on guard run as they do without, where no attribute is open, and leave none open -/
def Quiet (env : Surroundings) (ops : List Op) : Prop :=
  ∀ alarm, AlikeOpen false false (guardedAll alarm env ops) (execAll env ops)

theorem guardedAll_append (alarm : Halt) (env : Surroundings) (ops more : List Op) :
    guardedAll alarm env (ops ++ more) = (guardedAll alarm env ops >>= fun _ => guardedAll alarm env more) := by
  induction ops with
  | nil => rfl
  | cons op ops ih =>
    have h : guardedAll alarm env (op :: ops ++ more) =
        (op.guarded alarm env >>= fun _ => guardedAll alarm env (ops ++ more)) := by
      rw [List.cons_append, guardedAll]
    rw [h, ih, guardedAll, bind_assoc]

theorem Quiet.append {ops more : List Op} (h : Quiet env ops) (hm : Quiet env more) : Quiet env (ops ++ more) := by
  intro alarm
  rw [guardedAll_append, execAll_append]
  exact alikeOpen_bind (h alarm) fun _ => hm alarm

/-- an operation that is none of an attribute, if its bodies are quiet -/
theorem quiet_other {op : Op} (h : op.isAttribute = false) (hb : ∀ b ∈ op.bodies, Quiet env b) : Quiet env [op] := by
  intro alarm
  have key : AlikeOpen false false (op.guarded alarm env) (op.exec env) := by
    cases op with
    | text s =>
      simp only [guarded, exec]
      exact alikeOpen_check alarm (alikeOpen_modify fun _ hr => hr)
    | emit value =>
      simp only [guarded, exec]
      exact alikeOpen_check alarm
        (alikeOpen_bind ((Expr.onVariables env value).alikeOpen _) fun _ => alikeOpen_modify fun _ hr => hr)
    | beginAttribute opening => cases h
    | attributePart part => cases h
    | endAttribute closing => cases h
    | declare name init =>
      simp only [guarded, exec]
      exact alikeOpen_check alarm
        (alikeOpen_bind ((Expr.onVariables_option env init).alikeOpen _) fun _ => alikeOpen_modify fun _ hr => hr)
    | eval value =>
      simp only [guarded, exec]
      exact alikeOpen_check alarm
        (alikeOpen_bind ((Expr.onVariables env value).alikeOpen _) fun _ => alikeOpen_pure ())
    | branch test whenTrue whenFalse =>
      rw [guarded, exec]
      refine alikeOpen_check alarm (alikeOpen_bind ((Expr.onVariables_holds env test).alikeOpen _) fun b => ?_)
      cases b with
      | true => exact alikeOpen_inScope (hb whenTrue (by simp [bodies]) alarm)
      | false => exact alikeOpen_inScope (hb whenFalse (by simp [bodies]) alarm)
    | loop counter init condition iteration body =>
      rw [guarded, exec]
      refine alikeOpen_check alarm (alikeOpen_inScope ?_)
      refine alikeOpen_bind ((Expr.onVariables_option env init).alikeOpen _) fun v => ?_
      refine alikeOpen_bind (alikeOpen_modify fun _ hr => hr) fun _ => ?_
      refine alike_repeatWhile trivial ((Expr.onVariables_holds env condition).alikeOpen _) ?_ env.steps
      exact alikeOpen_bind (alikeOpen_inScope (hb body (by simp [bodies]) alarm)) fun _ =>
        alikeOpen_bind ((Expr.onVariables env iteration).alikeOpen _) fun _ => alikeOpen_pure ()
    | each item collection body =>
      rw [guarded, exec]
      refine alikeOpen_check alarm (alikeOpen_bind ((Expr.onVariables env collection).alikeOpen _) fun v => ?_)
      refine alikeOpen_bind ((onVariables_ofResult v.iterate).alikeOpen _) fun items => ?_
      refine alike_forM items fun w _ => ?_
      exact alikeOpen_inScope
        (alikeOpen_bind (alikeOpen_modify fun _ hr => hr) fun _ => hb body (by simp [bodies]) alarm)
  rw [execAll_singleton]
  have hs : guardedAll alarm env [op] = op.guarded alarm env := by
    rw [guardedAll, guardedAll]
    exact bind_pure _
  rw [hs]
  exact key

/-- the parts of an attribute find it open -/
theorem alikeOpen_parts (alarm : Halt) (parts : List AttributePart) :
    AlikeOpen true true (guardedAll alarm env (parts.map .attributePart)) (execAll env (parts.map .attributePart)) := by
  induction parts with
  | nil => exact alikeOpen_pure ()
  | cons part parts ih =>
    rw [List.map_cons, guardedAll, execAll, guarded, exec, bind_assoc, bind_assoc]
    refine alikeOpen_bind ((AttributePart.onVariables env part).alikeOpen _) fun s => ?_
    rw [bind_assoc]
    refine alikeOpen_check alarm (alikeOpen_bind (alikeOpen_modify fun r hr => ?_) fun _ => ih)
    unfold Run.addPart
    split
    · exact hr
    · simpa using hr

/-- a group opens its attribute, collects its parts and closes it -/
theorem quiet_group (opening closing : String) (parts : List AttributePart) :
    Quiet env (group opening parts closing) := by
  intro alarm
  have hend : AlikeOpen true false (guardedAll alarm env [.endAttribute closing]) (execAll env [.endAttribute closing]) := by
    rw [guardedAll, guardedAll, execAll, execAll, guarded, exec, bind_assoc]
    refine alikeOpen_check alarm (alikeOpen_bind (alikeOpen_modify fun r hr => ?_) fun _ => alikeOpen_pure ())
    obtain ⟨a, ha⟩ := Option.isSome_iff_exists.1 hr
    simp [Run.closeAttribute, ha]
  have hbegin : (beginAttribute opening).guarded alarm env =
      (do Execution.check alarm false; (beginAttribute opening).exec env) := by
    simp only [guarded]
  rw [group, guardedAll, execAll, guardedAll_append, execAll_append, hbegin, exec, bind_assoc]
  refine alikeOpen_check alarm (alikeOpen_bind (alikeOpen_modify fun _ _ => rfl) fun _ => ?_)
  exact alikeOpen_bind (alikeOpen_parts alarm parts) fun _ => hend

theorem quiet_grouped {ops : List Op} (h : Grouped ops) (hb : ∀ op ∈ ops, ∀ b ∈ op.bodies, Quiet env b) :
    Quiet env ops := by
  induction h with
  | nil => exact fun _ => alikeOpen_pure ()
  | @other op ops hop _ ih =>
    exact (quiet_other hop (hb op List.mem_cons_self)).append (ih fun o ho => hb o (List.mem_cons_of_mem op ho))
  | group opening closing _ _ ih =>
    exact (quiet_group opening closing _).append (ih fun o ho => hb o (List.mem_append_right _ ho))

theorem NormalForm.grouped {ops : List Op} (h : NormalForm ops) : Grouped ops := (h ops .self).grouped

/-- the bodies of a program in normal form are programs in normal form -/
theorem NormalForm.body {ops : List Op} (h : NormalForm ops) {op : Op} (hop : op ∈ ops) {b : List Op}
    (hb : b ∈ op.bodies) : NormalForm b := by
  intro body hbody
  have hin : BodyOf ops body := by
    induction hbody with
    | self => exact .inner .self hop hb
    | inner _ hop' hin ih => exact ih.inner hop' hin
  exact h body hin

mutual

theorem quiet_bodies : ∀ op : Op, (∀ b ∈ op.bodies, NormalForm b) → ∀ b ∈ op.bodies, Quiet env b
  | .branch _ whenTrue whenFalse, h, b, hb => by
    have hw : NormalForm whenTrue := h _ (by simp [bodies])
    have hf : NormalForm whenFalse := h _ (by simp [bodies])
    simp only [bodies, List.mem_cons, List.not_mem_nil, or_false] at hb
    rcases hb with hb | hb
    · rw [hb]
      exact quiet_grouped hw.grouped (quiet_all whenTrue fun _ hop _ hb => hw.body hop hb)
    · rw [hb]
      exact quiet_grouped hf.grouped (quiet_all whenFalse fun _ hop _ hb => hf.body hop hb)
  | .loop _ _ _ _ body, h, b, hb => by
    have hn : NormalForm body := h _ (by simp [bodies])
    rw [List.mem_singleton.1 hb]
    exact quiet_grouped hn.grouped (quiet_all body fun _ hop _ hb => hn.body hop hb)
  | .each _ _ body, h, b, hb => by
    have hn : NormalForm body := h _ (by simp [bodies])
    rw [List.mem_singleton.1 hb]
    exact quiet_grouped hn.grouped (quiet_all body fun _ hop _ hb => hn.body hop hb)
  | .text _, _, _, hb => nomatch hb
  | .emit _, _, _, hb => nomatch hb
  | .beginAttribute _, _, _, hb => nomatch hb
  | .attributePart _, _, _, hb => nomatch hb
  | .endAttribute _, _, _, hb => nomatch hb
  | .declare .., _, _, hb => nomatch hb
  | .eval _, _, _, hb => nomatch hb

theorem quiet_all : ∀ ops : List Op, (∀ op ∈ ops, ∀ b ∈ op.bodies, NormalForm b) →
    ∀ op ∈ ops, ∀ b ∈ op.bodies, Quiet env b
  | [], _, _, hop => nomatch hop
  | op :: ops, h, o, ho => by
    rcases List.mem_cons.1 ho with ho | ho
    · rw [ho]
      exact quiet_bodies op (h op List.mem_cons_self)
    · exact quiet_all ops (fun o ho => h o (List.mem_cons_of_mem op ho)) o ho

end

/-- **No alarm is raised.** A program in normal form runs on guard as it does without. -/
theorem NormalForm.quiet {ops : List Op} (h : NormalForm ops) : Quiet env ops :=
  quiet_grouped h.grouped (quiet_all ops fun _ hop _ hb => h.body hop hb)

end Op

end TemplateView
