/-
The shape of the scopes: which names each of them holds. Evaluation changes values and never the shape, since an
assignment finds its variable or fails. A body has a scope of its own, and leaves the scopes around it in the shape and at
the depth in which it found them.
-/
import TemplateView.Proofs.Program.Parts
import TemplateView.Proofs.Run.Outcome
import TemplateView.Proofs.Table
import TemplateView.Proofs.Value.Errors

namespace TemplateView

namespace Scopes

/-- which names each scope holds -/
def shape (s : Scopes) : List (String → Bool) := s.map Table.contains

/-- scopes of one shape have one depth -/
theorem length_of_shape {s s' : Scopes} (h : s'.shape = s.shape) : s'.length = s.length := by
  have hl := congrArg List.length h
  simpa [shape] using hl

theorem isSome_lookup? (s : Scopes) (name : String) : (s.lookup? name).isSome = s.shape.any (· name) := by
  induction s with
  | nil => rfl
  | cons t ts ih =>
    have ht : lookup? name (t :: ts) = (t.get? name).or (lookup? name ts) := by
      simp only [lookup?, List.findSome?_cons]
      cases t.get? name <;> rfl
    rw [ht, Option.isSome_or, ih]
    rfl

theorem shape_assign? {name : String} {v : Value} : ∀ {s s' : Scopes}, s.assign? name v = some s' → s'.shape = s.shape
  | t :: ts, s', h => by
    rw [assign?] at h
    split at h
    · next hc =>
      cases h
      have ht : (t.insert name v).contains = t.contains := by
        funext other
        rw [Table.contains_insert]
        by_cases ho : other = name
        · subst ho; simp [hc]
        · simp [ho]
      simp [shape, ht]
    · obtain ⟨s₁, hs₁, rfl⟩ := Option.map_eq_some_iff.1 h
      have h₁ := shape_assign? hs₁
      simp only [shape, List.map_cons, List.cons.injEq, true_and] at h₁ ⊢
      exact h₁

end Scopes

open Execution

variable {E : Halt → Prop} {env : Surroundings} {r : Run}

/-! ## Evaluation -/

/-- the variables that an expression itself names are there, or it may say that they are missing -/
def Expr.Bound (E : Halt → Prop) (shape : List (String → Bool)) : Expr → Prop
  | .local name => shape.any (· name) = true ∨ E (.error (.undefinedLocal name))
  | .update name _ _ => shape.any (· name) = true ∨ E (.error (.undefinedLocal name))
  | .assign name _ => shape.any (· name) = true ∨ E (.error (.undefinedLocal name))
  | _ => True

/-- a step keeps the shape of the scopes -/
abbrev Execution.KeepsShape {α : Type} (E : Halt → Prop) (m : Execution α) (r : Run) : Prop :=
  Ends E (fun _ r' => r'.scopes.shape = r.scopes.shape) m r

theorem shape_lookup {name : String} (h : r.scopes.shape.any (· name) = true ∨ E (.error (.undefinedLocal name))) :
    KeepsShape E (lookup name) r := by
  refine ends_lookup (fun _ _ => rfl) fun hn => ?_
  rcases h with h | h
  · rw [← Scopes.isSome_lookup?, hn] at h
    cases h
  · exact h

theorem shape_assign {name : String} {v : Value}
    (h : r.scopes.shape.any (· name) = true ∨ E (.error (.undefinedLocal name))) :
    KeepsShape E (assign name v) r := by
  refine ends_assign (fun _ hs => Scopes.shape_assign? hs) fun hn => ?_
  rcases h with h | h
  · have hs := Scopes.assign?_isSome name v r.scopes
    rw [hn, Scopes.isSome_lookup?, h] at hs
    cases hs
  · exact h

theorem shape_update {name : String} (step : Step) (fixity : Fixity)
    (h : r.scopes.shape.any (· name) = true ∨ E (.error (.undefinedLocal name))) :
    KeepsShape E (update name step fixity) r := by
  refine ends_bind (shape_lookup h) fun v r₁ h₁ => ?_
  rw [← h₁] at h ⊢
  exact ends_bind (shape_assign h) fun _ _ h₂ => ends_pure h₂

/-- the rule for a step behind another that keeps the shape -/
theorem shape_bind {α β : Type} {m : Execution α} {f : α → Execution β} (hm : KeepsShape E m r)
    (hf : ∀ a r', r'.scopes.shape = r.scopes.shape → KeepsShape E (f a) r') : KeepsShape E (m >>= f) r :=
  ends_bind hm fun a r₁ h₁ => (hf a r₁ h₁).mono fun _ _ h₂ => h₂.trans h₁

/-- what a failed look at the scopes cannot be: a failure of an operation on values, or of a call -/
structure Surroundings.Reports (E : Halt → Prop) (env : Surroundings) : Prop where
  value : ∀ h : Halt, h.Defined → E h
  call : ∀ name arguments h, env.call name arguments = .error h → E h

mutual

/-- **Evaluation keeps the shape of the scopes**, and misses no variable that is there. -/
theorem shape_eval (henv : env.Reports E) : ∀ (e : Expr) (r : Run), e.Every (Expr.Bound E r.scopes.shape) →
    KeepsShape E (e.eval env) r
  | .constant v, r, _ => ends_pure rfl
  | .local name, r, he => shape_lookup he
  | .model name, r, _ => ends_pure rfl
  | .modelRoot, r, _ => ends_pure rfl
  | .member object name, r, he => by
    rw [Expr.eval]
    refine shape_bind (shape_eval henv object r he.2) fun v r₁ _ => ?_
    exact ends_ofResult (fun _ _ => rfl) fun _ h => henv.value _ (Value.ofValues_member h).defined
  | .index target key, r, he => by
    rw [Expr.eval]
    refine shape_bind (shape_eval henv target r he.2.1) fun v r₁ h₁ => ?_
    refine shape_bind (shape_eval henv key r₁ (h₁ ▸ he.2.2)) fun k r₂ _ => ?_
    exact ends_ofResult (fun _ _ => rfl) fun _ h => henv.value _ (Value.ofValues_index h).defined
  | .callHelper name arguments, r, he => by
    rw [Expr.eval]
    refine shape_bind (shape_evalAll henv arguments r he.2) fun vs r₁ _ => ?_
    exact ends_lift (fun _ _ => rfl) fun h hh => henv.call name vs h hh
  | .callMethod receiver name arguments, r, he => by
    rw [Expr.eval]
    refine shape_bind (shape_eval henv receiver r he.2.1) fun v r₁ h₁ => ?_
    refine shape_bind (shape_evalAll henv arguments r₁ (h₁ ▸ he.2.2)) fun vs r₂ _ => ?_
    exact ends_ofResult (fun _ _ => rfl) fun _ h => henv.value _ (Value.ofValues_callMethod h).defined
  | .array items, r, he => by
    rw [Expr.eval]
    exact shape_bind (shape_evalAll henv items r he.2) fun _ _ _ => ends_pure rfl
  | .unary op operand, r, he => by
    rw [Expr.eval]
    refine shape_bind (shape_eval henv operand r he.2) fun v r₁ _ => ?_
    exact ends_ofResult (fun _ _ => rfl) fun _ h => henv.value _ (Value.ofValues_unary h).defined
  | .update name step fixity, r, he => shape_update step fixity he
  | .binary left op right, r, he => by
    rw [Expr.eval]
    refine shape_bind (shape_eval henv left r he.2.1) fun v r₁ h₁ => ?_
    split
    · exact ends_pure rfl
    · refine shape_bind (shape_eval henv right r₁ (h₁ ▸ he.2.2)) fun w r₂ _ => ?_
      exact ends_ofResult (fun _ _ => rfl) fun _ h => henv.value _ (Value.ofValues_binary h).defined
  | .assign name value, r, he => by
    rw [Expr.eval]
    refine shape_bind (shape_eval henv value r he.2) fun v r₁ h₁ => ?_
    exact shape_bind (shape_assign (h₁ ▸ he.1)) fun _ _ _ => ends_pure rfl
  | .conditional test whenTrue whenFalse, r, he => by
    rw [Expr.eval]
    refine shape_bind (shape_eval henv test r he.2.1) fun v r₁ h₁ => ?_
    split
    · exact shape_eval henv whenTrue r₁ (h₁ ▸ he.2.2.1)
    · exact shape_eval henv whenFalse r₁ (h₁ ▸ he.2.2.2)

theorem shape_evalAll (henv : env.Reports E) : ∀ (es : List Expr) (r : Run),
    Expr.AllEvery (Expr.Bound E r.scopes.shape) es → KeepsShape E (Expr.evalAll env es) r
  | [], r, _ => ends_pure rfl
  | e :: es, r, he => by
    rw [Expr.evalAll]
    refine shape_bind (shape_eval henv e r he.1) fun v r₁ h₁ => ?_
    exact shape_bind (shape_evalAll henv es r₁ (h₁ ▸ he.2)) fun _ _ _ => ends_pure rfl

end

/-- evaluation of any expression, which may miss variables -/
theorem shape_eval_any (env : Surroundings) (e : Expr) (r : Run) : KeepsShape (fun _ => True) (e.eval env) r := by
  refine shape_eval ⟨fun _ _ => trivial, fun _ _ _ _ => trivial⟩ e r (Expr.every_of_forall (fun x => ?_) e)
  cases x <;> first | exact Or.inr trivial | trivial

/-! ## Bodies -/

/-- the scopes below the innermost one have the shape they had, and there are as many -/
def Scopes.SameBelow (s s' : Scopes) : Prop := s'.leave.shape = s.leave.shape ∧ s'.length = s.length

namespace Scopes

theorem SameBelow.refl (s : Scopes) : s.SameBelow s := ⟨rfl, rfl⟩

theorem SameBelow.trans {s₁ s₂ s₃ : Scopes} (h : s₁.SameBelow s₂) (h' : s₂.SameBelow s₃) : s₁.SameBelow s₃ :=
  ⟨h'.1.trans h.1, h'.2.trans h.2⟩

theorem sameBelow_of_shape {s s' : Scopes} (h : s'.shape = s.shape) : s.SameBelow s' := by
  refine ⟨?_, length_of_shape h⟩
  have ht := congrArg List.tail h
  simpa [shape, leave, List.map_tail] using ht

theorem sameBelow_declare (s : Scopes) (name : String) (v : Value) : s.SameBelow (s.declare name v) := by
  cases s with
  | nil => exact ⟨rfl, rfl⟩
  | cons t ts => exact ⟨rfl, rfl⟩

end Scopes

/-- a step leaves the scopes below the innermost one in their shape -/
abbrev Execution.KeepsBelow {α : Type} (m : Execution α) (r : Run) : Prop :=
  Ends (fun _ => True) (fun _ r' => r.scopes.SameBelow r'.scopes) m r

theorem below_bind {α β : Type} {m : Execution α} {f : α → Execution β} (hm : KeepsBelow m r)
    (hf : ∀ a r', KeepsBelow (f a) r') : KeepsBelow (m >>= f) r :=
  ends_bind hm fun a r₁ h₁ => (hf a r₁).mono fun _ _ h₂ => h₁.trans h₂

theorem below_eval (env : Surroundings) (e : Expr) (r : Run) : KeepsBelow (e.eval env) r :=
  (shape_eval_any env e r).mono fun _ _ => Scopes.sameBelow_of_shape

theorem below_evalOption (env : Surroundings) (e : Option Expr) (r : Run) : KeepsBelow (Expr.evalOption env e) r := by
  cases e with
  | none => exact ends_pure (.refl _)
  | some e => exact below_eval env e r

theorem below_holds (env : Surroundings) (e : Expr) (r : Run) : KeepsBelow (e.holds env) r :=
  below_bind (below_eval env e r) fun _ _ => ends_pure (.refl _)

theorem below_declare (name : String) (v : Value) (r : Run) : KeepsBelow (changeScopes (·.declare name v)) r :=
  ends_modify (Scopes.sameBelow_declare _ _ _)

/-- **A body leaves the scopes in their shape.** -/
theorem shape_inScope {m : Execution Unit} (hm : ∀ r : Run, KeepsBelow m r) (r : Run) :
    KeepsShape (fun _ => True) (inScope m) r :=
  ends_inScope ((hm _).mono fun _ _ h => h.1)

theorem below_inScope {m : Execution Unit} (hm : ∀ r : Run, KeepsBelow m r) (r : Run) : KeepsBelow (inScope m) r :=
  (shape_inScope hm r).mono fun _ _ => Scopes.sameBelow_of_shape

/-- the rounds of a loop, with the declaration of its counter before them -/
def Op.rounds (env : Surroundings) (counter : String) (init : Option Expr) (condition iteration : Expr)
    (body : List Op) : Execution Unit := do
  let v ← Expr.evalOption env init
  changeScopes (·.declare counter v)
  repeatWhile (condition.holds env) (do
    inScope (Op.execAll env body)
    let _ ← iteration.eval env) env.steps

theorem below_rounds (counter : String) (init : Option Expr) (condition iteration : Expr) {body : List Op}
    (hb : ∀ r, KeepsBelow (Op.execAll env body) r) (r : Run) :
    KeepsBelow (Op.rounds env counter init condition iteration body) r := by
  refine below_bind (below_evalOption env init r) fun v r₁ => below_bind (below_declare counter v r₁) fun _ r₂ => ?_
  have hc : ∀ r, r₂.scopes.SameBelow r.scopes →
      Ends (fun _ => True) (fun _ r' => r₂.scopes.SameBelow r'.scopes) (condition.holds env) r :=
    fun r h => (below_holds env condition r).mono fun _ _ => h.trans
  refine ends_repeatWhile trivial hc (fun r h => ?_) env.steps r₂ (.refl _)
  have hr : KeepsBelow (do inScope (Op.execAll env body); let _ ← iteration.eval env) r :=
    below_bind (below_inScope hb r) fun _ r₃ => below_bind (below_eval env iteration r₃) fun _ _ => ends_pure (.refl _)
  exact hr.mono fun _ _ => h.trans

mutual

/-- an operation leaves the scopes below the innermost one in their shape -/
theorem below_exec (env : Surroundings) : ∀ (op : Op) (r : Run), KeepsBelow (op.exec env) r
  | .text s, r => ends_modify (.refl _)
  | .emit value, r => by
    rw [Op.exec]
    exact below_bind (below_eval env value r) fun _ _ => ends_modify (.refl _)
  | .beginAttribute opening, r => ends_modify (.refl _)
  | .attributePart part, r => by
    rw [Op.exec]
    refine below_bind ?_ fun s r₁ => ends_modify ?_
    · cases part with
      | text s => exact ends_pure (.refl _)
      | value e => exact below_bind (below_eval env e r) fun _ _ => ends_pure (.refl _)
    · unfold Run.addPart
      split <;> exact .refl _
  | .endAttribute closing, r => by
    rw [Op.exec]
    refine ends_modify ?_
    unfold Run.closeAttribute
    split <;> exact .refl _
  | .declare name init, r => by
    rw [Op.exec]
    exact below_bind (below_evalOption env init r) fun v r₁ => below_declare name v r₁
  | .eval value, r => by
    rw [Op.exec]
    exact below_bind (below_eval env value r) fun _ _ => ends_pure (.refl _)
  | .branch test whenTrue whenFalse, r => by
    rw [Op.exec]
    refine below_bind (below_holds env test r) fun b r₁ => ?_
    cases b with
    | true => exact below_inScope (below_execAll env whenTrue) r₁
    | false => exact below_inScope (below_execAll env whenFalse) r₁
  | .loop counter init condition iteration body, r => by
    rw [Op.exec]
    exact below_inScope (below_rounds counter init condition iteration (below_execAll env body)) r
  | .each item collection body, r => by
    rw [Op.exec]
    refine below_bind (below_eval env collection r) fun v r₁ => ?_
    refine below_bind (ends_ofResult (fun _ _ => .refl _) fun _ _ => trivial) fun items r₂ => ?_
    refine ends_forM items (fun w _ r h => ?_) r₂ (.refl _)
    have hb := below_inScope (m := do changeScopes (·.declare item w); Op.execAll env body)
      (fun r => below_bind (below_declare item w r) fun _ r₃ => below_execAll env body r₃) r
    exact hb.mono fun _ _ => h.trans

theorem below_execAll (env : Surroundings) : ∀ (ops : List Op) (r : Run), KeepsBelow (Op.execAll env ops) r
  | [], r => ends_pure (.refl _)
  | op :: ops, r => by
    rw [Op.execAll]
    exact below_bind (below_exec env op r) fun _ r₁ => below_execAll env ops r₁

end

end TemplateView
