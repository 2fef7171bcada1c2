/-
Evaluation and the rest of a run. An expression reads and changes variables and nothing else: neither the markup written
so far nor the attribute under way has an effect on its value, and both are left as they are. A helper that an expression
calls has a run of its own, so this holds whatever the call does.
-/
import TemplateView.Proofs.Run.Outcome

namespace TemplateView

/-- the run with the markup and the attribute of another one -/
def Run.inside (r outer : Run) : Run := { r with html := outer.html, pending := outer.pending }

namespace Execution

/-- a step that reads and changes the variables of a run and nothing else -/
def OnVariables {α : Type} (m : Execution α) : Prop :=
  ∀ r r₀ : Run, r₀.scopes = r.scopes → m r = (m r₀).map fun p => (p.1, p.2.inside r)

section

variable {α β : Type} {m : Execution α}

theorem onVariables_pure (a : α) : OnVariables (pure a : Execution α) := by
  intro r r₀ h
  show Except.ok (a, r) = .ok (a, r₀.inside r)
  rw [Run.inside, h]

theorem onVariables_fail (e : RenderError) : OnVariables (fail e : Execution α) := fun _ _ _ => rfl

theorem onVariables_ofResult (x : Except RenderError α) : OnVariables (ofResult x) := by
  cases x with
  | ok a => exact onVariables_pure a
  | error e => exact onVariables_fail e

theorem onVariables_lift (x : Except Halt α) : OnVariables (StateT.lift x : Execution α) := by
  cases x with
  | ok a => exact onVariables_pure a
  | error h => exact fun _ _ _ => rfl

theorem onVariables_bind {f : α → Execution β} (hm : OnVariables m) (hf : ∀ a, OnVariables (f a)) :
    OnVariables (m >>= f) := by
  intro r r₀ h
  rw [bind_run, bind_run, hm r r₀ h]
  cases h₀ : m r₀ with
  | error e => rfl
  | ok p =>
    show f p.1 (p.2.inside r) = (f p.1 p.2).map fun q => (q.1, q.2.inside r)
    exact hf p.1 (p.2.inside r) p.2 rfl

/-- what is made of the variables alone -/
theorem onVariables_scopes {f : Scopes → Execution α} (h : ∀ s, OnVariables (f s)) :
    OnVariables (do f (← get).scopes) := by
  intro r r₀ hs
  show f r.scopes r = (f r₀.scopes r₀).map _
  rw [hs]
  exact h r.scopes r r₀ hs

theorem onVariables_ofOption (e : RenderError) (x : Option α) : OnVariables (ofOption e x) := by
  cases x with
  | some a => exact onVariables_pure a
  | none => exact onVariables_fail e

theorem onVariables_lookup (name : String) : OnVariables (lookup name) :=
  onVariables_scopes (f := fun s => ofOption (.undefinedLocal name) (s.lookup? name)) fun _ => onVariables_ofOption _ _

theorem onVariables_changeScopes (f : Scopes → Scopes) : OnVariables (changeScopes f) := by
  intro r r₀ h
  show Except.ok ((), { r with scopes := f r.scopes }) = .ok ((), { r with scopes := f r₀.scopes })
  rw [h]

theorem onVariables_assign (name : String) (v : Value) : OnVariables (assign name v) := by
  have hf : ∀ s : Scopes, OnVariables (do
      let scopes ← ofOption (.undefinedLocal name) (s.assign? name v)
      changeScopes fun _ => scopes) :=
    fun s => onVariables_bind (onVariables_ofOption _ _) fun _ => onVariables_changeScopes _
  exact onVariables_scopes hf

theorem onVariables_update (name : String) (step : Step) (fixity : Fixity) : OnVariables (update name step fixity) :=
  onVariables_bind (onVariables_lookup name) fun _ => onVariables_bind (onVariables_assign name _) fun _ =>
    onVariables_pure _

/-- the markup and the attribute under way are as they were -/
theorem OnVariables.kept (hm : OnVariables m) {r r' : Run} {a : α} (h : m r = .ok (a, r')) :
    r'.html = r.html ∧ r'.pending = r.pending := by
  have hr := hm r r rfl
  rw [h] at hr
  have hr' : r' = r'.inside r := congrArg Prod.snd (Except.ok.inj hr)
  rw [hr']
  exact ⟨rfl, rfl⟩

end

end Execution

open Execution

mutual

/-- **Evaluation is a matter of variables.** -/
theorem Expr.onVariables (env : Surroundings) : ∀ e : Expr, OnVariables (e.eval env)
  | .constant v => onVariables_pure v
  | .local name => onVariables_lookup name
  | .model _ => onVariables_pure _
  | .modelRoot => onVariables_pure _
  | .member object _ => by
    rw [Expr.eval]
    exact onVariables_bind (Expr.onVariables env object) fun _ => onVariables_ofResult _
  | .index target key => by
    rw [Expr.eval]
    exact onVariables_bind (Expr.onVariables env target) fun _ =>
      onVariables_bind (Expr.onVariables env key) fun _ => onVariables_ofResult _
  | .callHelper _ arguments => by
    rw [Expr.eval]
    exact onVariables_bind (Expr.onVariables_all env arguments) fun _ => onVariables_lift _
  | .callMethod receiver _ arguments => by
    rw [Expr.eval]
    exact onVariables_bind (Expr.onVariables env receiver) fun _ =>
      onVariables_bind (Expr.onVariables_all env arguments) fun _ => onVariables_ofResult _
  | .array items => by
    rw [Expr.eval]
    exact onVariables_bind (Expr.onVariables_all env items) fun _ => onVariables_pure _
  | .unary _ operand => by
    rw [Expr.eval]
    exact onVariables_bind (Expr.onVariables env operand) fun _ => onVariables_ofResult _
  | .update name step fixity => onVariables_update name step fixity
  | .binary left op right => by
    rw [Expr.eval]
    refine onVariables_bind (Expr.onVariables env left) fun v => ?_
    split
    · exact onVariables_pure v
    · exact onVariables_bind (Expr.onVariables env right) fun _ => onVariables_ofResult _
  | .assign name value => by
    rw [Expr.eval]
    exact onVariables_bind (Expr.onVariables env value) fun _ =>
      onVariables_bind (onVariables_assign name _) fun _ => onVariables_pure _
  | .conditional test whenTrue whenFalse => by
    rw [Expr.eval]
    refine onVariables_bind (Expr.onVariables env test) fun _ => ?_
    split
    · exact Expr.onVariables env whenTrue
    · exact Expr.onVariables env whenFalse

theorem Expr.onVariables_all (env : Surroundings) : ∀ es : List Expr, OnVariables (Expr.evalAll env es)
  | [] => onVariables_pure []
  | e :: es => by
    rw [Expr.evalAll]
    exact onVariables_bind (Expr.onVariables env e) fun _ =>
      onVariables_bind (Expr.onVariables_all env es) fun _ => onVariables_pure _

end

end TemplateView
