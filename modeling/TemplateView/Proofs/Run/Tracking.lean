/-
Runs that track other runs. `Tracks E F x y` compares two outcomes: `x` is `y`, and if it is an early end its reason is in
`F`; or `x` ends early for a reason in `E`, and `y` may be anything. `tracks_run` carries this through whole programs: it
holds of the markup of a program in two surroundings if it holds of the calls that the program makes, and if both agree on
what the program reads.

With nothing in `E` both runs give the same, and `F` says which ends are possible at all. With an exhausted bound in `E`,
the second run may have more of what the first one ran out of.
-/
import TemplateView.Proofs.Program.Parts
import TemplateView.Proofs.Run.Outcome
import TemplateView.Proofs.Value.Errors

namespace TemplateView

/-- one outcome is the other, for a reason in `F` if it is an early end; or it is an early end for a reason in `E` -/
def Tracks {α : Type} (E F : Halt → Prop) (x y : Except Halt α) : Prop :=
  (x = y ∧ ∀ h, x = .error h → F h) ∨ ∃ h, x = .error h ∧ E h

/-! ## Outcomes -/

section

variable {α β : Type} {E F : Halt → Prop}

theorem tracks_ok (a : α) : Tracks E F (.ok a) (.ok a) := Or.inl ⟨rfl, nofun⟩

theorem tracks_refl {x : Except Halt α} (h : ∀ e, x = .error e → F e) : Tracks E F x x := Or.inl ⟨rfl, h⟩

theorem tracks_error {h : Halt} (hF : F h) : Tracks E F (.error h : Except Halt α) (.error h) :=
  tracks_refl fun _ he => by cases he; exact hF

theorem tracks_escape {h : Halt} {y : Except Halt α} (hE : E h) : Tracks E F (.error h) y := Or.inr ⟨h, rfl, hE⟩

theorem Tracks.bind {x y : Except Halt α} {f g : α → Except Halt β} (h : Tracks E F x y)
    (hf : ∀ a, Tracks E F (f a) (g a)) : Tracks E F (x >>= f) (y >>= g) := by
  obtain ⟨rfl, hF⟩ | ⟨e, rfl, hE⟩ := h
  · cases x with
    | ok a => exact hf a
    | error e => exact tracks_error (hF e rfl)
  · exact tracks_escape hE

/-- with nothing to escape to, both outcomes are one, and its early ends are in `F` -/
theorem Tracks.eq {x y : Except Halt α} (h : Tracks (fun _ => False) F x y) : x = y ∧ ∀ e, x = .error e → F e := by
  obtain h | ⟨_, _, hE⟩ := h
  · exact h
  · exact hE.elim

theorem tracks_mapM {f g : α → Except Halt β} (hf : ∀ a, Tracks E F (f a) (g a)) (as : List α) :
    Tracks E F (as.mapM f) (as.mapM g) := by
  induction as with
  | nil => exact tracks_ok []
  | cons a as ih =>
    rw [List.mapM_cons, List.mapM_cons]
    exact (hf a).bind fun b => ih.bind fun bs => tracks_ok (b :: bs)

end

/-! ## Executions -/

namespace Execution

/-- the outcomes of the first execution track those of the second one -/
def Shadows {α : Type} (E F : Halt → Prop) (m m' : Execution α) : Prop :=
  ∀ r, Tracks E F (m r) (m' r)

section

variable {α β : Type} {E F : Halt → Prop}

theorem shadows_pure (a : α) : Shadows E F (pure a) (pure a) := fun r => tracks_ok (a, r)

theorem shadows_modify (f : Run → Run) : Shadows E F (modify f) (modify f) := fun r => tracks_ok ((), f r)

theorem shadows_bind {m m' : Execution α} {f f' : α → Execution β} (hm : Shadows E F m m')
    (hf : ∀ a, Shadows E F (f a) (f' a)) : Shadows E F (m >>= f) (m' >>= f') :=
  fun r => (hm r).bind fun p => hf p.1 p.2

theorem shadows_lift {x y : Except Halt α} (h : Tracks E F x y) :
    Shadows E F (StateT.lift x) (StateT.lift y) :=
  fun r => h.bind fun a => tracks_ok (a, r)

theorem shadows_ofResult {x : Except RenderError α} (h : ∀ e, x = .error e → F (.error e)) :
    Shadows E F (ofResult x) (ofResult x) := by
  intro r
  cases x with
  | ok a => exact tracks_ok (a, r)
  | error e => exact tracks_error (h e rfl)

/-- an execution that ends early only for reasons in `F` -/
theorem shadows_self {m : Execution α} {Q : α → Run → Prop} (h : ∀ r, Ends F Q m r) : Shadows E F m m :=
  fun r => tracks_refl fun _ he => ends_error (h r) he

theorem shadows_inScope {m m' : Execution Unit} (h : Shadows E F m m') : Shadows E F (inScope m) (inScope m') :=
  shadows_bind (shadows_modify _) fun _ => shadows_bind h fun _ => shadows_modify _

/-- a loop with one bound on its rounds in both executions -/
theorem shadows_repeatWhile {condition condition' : Execution Bool} {body body' : Execution Unit} (hn : F .outOfSteps)
    (hc : Shadows E F condition condition') (hb : Shadows E F body body') (n : Nat) :
    Shadows E F (repeatWhile condition body n) (repeatWhile condition' body' n) := by
  induction n with
  | zero => exact fun _ => tracks_error hn
  | succ n ih =>
    rw [repeatWhile, repeatWhile]
    refine shadows_bind hc fun b => ?_
    cases b with
    | true => exact shadows_bind hb fun _ => ih
    | false => exact shadows_pure ()

theorem shadows_forM {f f' : β → Execution Unit} (hf : ∀ b, Shadows E F (f b) (f' b)) (items : List β) :
    Shadows E F (items.forM f) (items.forM f') := by
  induction items with
  | nil => exact shadows_pure ()
  | cons b bs ih => exact shadows_bind (hf b) fun _ => ih

end

end Execution

open Execution

/-! ## Evaluation -/

/-- the reasons include those for which an evaluation can fail by itself: an operation on values, or a missing variable -/
structure Common (F : Halt → Prop) : Prop where
  values : ∀ e : RenderError, e.OfValues → F (.error e)
  scopes : ∀ name, F (.error (.undefinedLocal name))

/-- two models that give the same for what expressions of the kind `N` read of them -/
structure Value.AgreesOn (N : Expr → Prop) (model model' : Value) : Prop where
  property : ∀ name, N (.model name) → model.property name = model'.property name
  root : N .modelRoot → model = model'

theorem Value.AgreesOn.refl (N : Expr → Prop) (model : Value) : model.AgreesOn N model := ⟨fun _ _ => rfl, fun _ => rfl⟩

/-- two surroundings for expressions of the kind `N`: what these read is the same, the calls they make track each other,
and loops, if there are any, have one bound -/
structure Surroundings.Matches (E F : Halt → Prop) (N : Expr → Prop) (loops : Prop) (env env' : Surroundings) : Prop extends
    Common F where
  model : env.model.AgreesOn N env'.model
  call : ∀ name arguments, N (.callHelper name arguments) → ∀ values,
    Tracks E F (env.call name values) (env'.call name values)
  steps : loops → env.steps = env'.steps ∧ F .outOfSteps

section

variable {E F : Halt → Prop} {N : Expr → Prop} {loops : Prop} {env env' : Surroundings}

theorem shadows_lookup (hF : Common F) (name : String) : Shadows E F (lookup name) (lookup name) :=
  shadows_self (Q := fun _ _ => True) fun _ => ends_lookup (fun _ _ => trivial) fun _ => hF.scopes name

theorem shadows_assign (hF : Common F) (name : String) (v : Value) : Shadows E F (assign name v) (assign name v) :=
  shadows_self (Q := fun _ _ => True) fun _ => ends_assign (fun _ _ => trivial) fun _ => hF.scopes name

theorem shadows_update (hF : Common F) (name : String) (step : Step) (fixity : Fixity) :
    Shadows E F (update name step fixity) (update name step fixity) :=
  shadows_bind (shadows_lookup hF name) fun _ => shadows_bind (shadows_assign hF name _) fun _ => shadows_pure _

/-- an operation on values behind the evaluation of its operands -/
theorem Common.shadows_result {α : Type} (hF : Common F) {x : Except RenderError α}
    (h : ∀ e, x = .error e → e.OfValues) : Shadows E F (ofResult x) (ofResult x) :=
  shadows_ofResult fun e he => hF.values e (h e he)

mutual

/-- **Evaluation shadows evaluation** in surroundings that match. -/
theorem shadows_eval (henv : env.Matches E F N loops env') :
    ∀ e : Expr, e.Every N → Shadows E F (e.eval env) (e.eval env')
  | .constant v, _ => shadows_pure v
  | .local name, _ => shadows_lookup henv.toCommon name
  | .model name, he => by
    rw [Expr.eval, Expr.eval, henv.model.property name he]
    exact shadows_pure _
  | .modelRoot, he => by
    rw [Expr.eval, Expr.eval, henv.model.root he]
    exact shadows_pure _
  | .member object name, he => by
    rw [Expr.eval, Expr.eval]
    exact shadows_bind (shadows_eval henv object he.2) fun v =>
      henv.shadows_result fun e h => Value.ofValues_member h
  | .index target key, he => by
    rw [Expr.eval, Expr.eval]
    refine shadows_bind (shadows_eval henv target he.2.1) fun v => ?_
    exact shadows_bind (shadows_eval henv key he.2.2) fun k =>
      henv.shadows_result fun e h => Value.ofValues_index h
  | .callHelper name arguments, he => by
    rw [Expr.eval, Expr.eval]
    exact shadows_bind (shadows_evalAll henv arguments he.2) fun values =>
      shadows_lift (henv.call name arguments he.1 values)
  | .callMethod receiver name arguments, he => by
    rw [Expr.eval, Expr.eval]
    refine shadows_bind (shadows_eval henv receiver he.2.1) fun v => ?_
    exact shadows_bind (shadows_evalAll henv arguments he.2.2) fun values =>
      henv.shadows_result fun e h => Value.ofValues_callMethod h
  | .array items, he => by
    rw [Expr.eval, Expr.eval]
    exact shadows_bind (shadows_evalAll henv items he.2) fun _ => shadows_pure _
  | .unary op operand, he => by
    rw [Expr.eval, Expr.eval]
    exact shadows_bind (shadows_eval henv operand he.2) fun v =>
      henv.shadows_result fun e h => Value.ofValues_unary h
  | .update name step fixity, _ => shadows_update henv.toCommon name step fixity
  | .binary left op right, he => by
    rw [Expr.eval, Expr.eval]
    refine shadows_bind (shadows_eval henv left he.2.1) fun v => ?_
    split
    · exact shadows_pure v
    · exact shadows_bind (shadows_eval henv right he.2.2) fun w =>
        henv.shadows_result fun e h => Value.ofValues_binary h
  | .assign name value, he => by
    rw [Expr.eval, Expr.eval]
    refine shadows_bind (shadows_eval henv value he.2) fun v => ?_
    exact shadows_bind (shadows_assign henv.toCommon name v) fun _ => shadows_pure v
  | .conditional test whenTrue whenFalse, he => by
    rw [Expr.eval, Expr.eval]
    refine shadows_bind (shadows_eval henv test he.2.1) fun v => ?_
    split
    · exact shadows_eval henv whenTrue he.2.2.1
    · exact shadows_eval henv whenFalse he.2.2.2

theorem shadows_evalAll (henv : env.Matches E F N loops env') :
    ∀ es : List Expr, Expr.AllEvery N es → Shadows E F (Expr.evalAll env es) (Expr.evalAll env' es)
  | [], _ => shadows_pure []
  | e :: es, he => by
    rw [Expr.evalAll, Expr.evalAll]
    refine shadows_bind (shadows_eval henv e he.1) fun v => ?_
    exact shadows_bind (shadows_evalAll henv es he.2) fun _ => shadows_pure _

end

theorem shadows_evalOption (henv : env.Matches E F N loops env') {e : Option Expr} (he : ∀ x ∈ e.toList, x.Every N) :
    Shadows E F (Expr.evalOption env e) (Expr.evalOption env' e) := by
  cases e with
  | none => exact shadows_pure Value.null
  | some e => exact shadows_eval henv e (he e (by simp))

theorem shadows_holds (henv : env.Matches E F N loops env') {e : Expr} (he : e.Every N) :
    Shadows E F (e.holds env) (e.holds env') :=
  shadows_bind (shadows_eval henv e he) fun _ => shadows_pure _

theorem shadows_shown (henv : env.Matches E F N loops env') {part : AttributePart}
    (he : ∀ x ∈ (Op.attributePart part).exprs, x.Every N) : Shadows E F (part.shown env) (part.shown env') := by
  cases part with
  | text s => exact shadows_pure s
  | value e => exact shadows_bind (shadows_eval henv e (he e (by simp [Op.exprs]))) fun _ => shadows_pure _

/-! ## Operations -/

/-- the operation repeats its body while a condition holds -/
def Op.isLoop : Op → Bool
  | .loop .. => true
  | _ => false

/-- the operation's own expressions are of the kind `N`, and it is a loop only if there may be loops -/
def Op.Within (N : Expr → Prop) (loops : Prop) (op : Op) : Prop :=
  (∀ e ∈ op.exprs, e.Every N) ∧ (op.isLoop = true → loops)

mutual

/-- **An operation shadows itself** in surroundings that match. -/
theorem shadows_exec (henv : env.Matches E F N loops env') :
    ∀ op : Op, (∀ o ∈ op.parts, o.Within N loops) → Shadows E F (op.exec env) (op.exec env')
  | .text s, _ => shadows_modify _
  | .emit value, ho => by
    have hs := (ho _ (Op.self_mem_parts _)).1 value (by simp [Op.exprs])
    rw [Op.exec, Op.exec]
    exact shadows_bind (shadows_eval henv value hs) fun _ => shadows_modify _
  | .beginAttribute opening, _ => shadows_modify _
  | .attributePart part, ho => by
    rw [Op.exec, Op.exec]
    exact shadows_bind (shadows_shown henv (ho _ (Op.self_mem_parts _)).1) fun _ => shadows_modify _
  | .endAttribute closing, _ => shadows_modify _
  | .declare name init, ho => by
    rw [Op.exec, Op.exec]
    exact shadows_bind (shadows_evalOption henv (ho _ (Op.self_mem_parts _)).1) fun _ => shadows_modify _
  | .eval value, ho => by
    have hs := (ho _ (Op.self_mem_parts _)).1 value (by simp [Op.exprs])
    rw [Op.exec, Op.exec]
    exact shadows_bind (shadows_eval henv value hs) fun _ => shadows_pure ()
  | .branch test whenTrue whenFalse, ho => by
    have hs := (ho _ (Op.self_mem_parts _)).1 test (by simp [Op.exprs])
    have ht : ∀ o ∈ Op.allParts whenTrue, o.Within N loops := fun o h => ho o (by simp [Op.parts.eq_def, h])
    have hf : ∀ o ∈ Op.allParts whenFalse, o.Within N loops := fun o h => ho o (by simp [Op.parts.eq_def, h])
    rw [Op.exec, Op.exec]
    refine shadows_bind (shadows_holds henv hs) fun b => ?_
    cases b with
    | true => exact shadows_inScope (shadows_execAll henv whenTrue ht)
    | false => exact shadows_inScope (shadows_execAll henv whenFalse hf)
  | .loop counter init condition iteration body, ho => by
    obtain ⟨hs, hl⟩ := ho _ (Op.self_mem_parts _)
    have hb : ∀ o ∈ Op.allParts body, o.Within N loops := fun o h => ho o (by simp [Op.parts.eq_def, h])
    have hi : ∀ x ∈ init.toList, x.Every N := fun x hx => hs x (by simp [Op.exprs, hx])
    obtain ⟨hn, hF⟩ := henv.steps (hl rfl)
    rw [Op.exec, Op.exec, hn]
    refine shadows_inScope (shadows_bind (shadows_evalOption henv hi) fun v => ?_)
    refine shadows_bind (shadows_modify _) fun _ => ?_
    refine shadows_repeatWhile hF (shadows_holds henv (hs condition (by simp [Op.exprs]))) ?_ _
    refine shadows_bind (shadows_inScope (shadows_execAll henv body hb)) fun _ => ?_
    exact shadows_bind (shadows_eval henv iteration (hs iteration (by simp [Op.exprs]))) fun _ => shadows_pure ()
  | .each item collection body, ho => by
    have hs := (ho _ (Op.self_mem_parts _)).1 collection (by simp [Op.exprs])
    have hb : ∀ o ∈ Op.allParts body, o.Within N loops := fun o h => ho o (by simp [Op.parts.eq_def, h])
    rw [Op.exec, Op.exec]
    refine shadows_bind (shadows_eval henv collection hs) fun v => ?_
    refine shadows_bind (henv.shadows_result fun e h => Value.ofValues_iterate h) fun items => ?_
    refine shadows_forM (fun w => shadows_inScope ?_) items
    exact shadows_bind (shadows_modify _) fun _ => shadows_execAll henv body hb

theorem shadows_execAll (henv : env.Matches E F N loops env') :
    ∀ ops : List Op, (∀ o ∈ Op.allParts ops, o.Within N loops) → Shadows E F (Op.execAll env ops) (Op.execAll env' ops)
  | [], _ => shadows_pure ()
  | op :: ops, ho => by
    rw [Op.execAll, Op.execAll]
    refine shadows_bind (shadows_exec henv op fun o h => ho o (by simp [Op.allParts, h])) fun _ => ?_
    exact shadows_execAll henv ops fun o h => ho o (by simp [Op.allParts, h])

end

/-- **A program tracks itself** in surroundings that match, whatever variables it starts with. -/
theorem tracks_run (henv : env.Matches E F N loops env') {program : Program}
    (ho : ∀ o ∈ Op.allParts program, o.Within N loops) (initial : Table Value) :
    Tracks E F (program.run env initial) (program.run env' initial) :=
  (shadows_execAll henv program ho _).bind fun p => tracks_ok p.2.html

theorem tracks_fragment (henv : env.Matches E F N loops env') {f : Fragment}
    (ho : ∀ o ∈ Op.allParts f.program, o.Within N loops) (arguments : List Value) :
    Tracks E F (f.run env arguments) (f.run env' arguments) :=
  tracks_run henv ho _

end

end TemplateView
