/-
How executions end. `Ends E Q m r` says of an execution `m` started in the run `r`: if it gives a result then `Q` holds
of the result and of the run behind it, and if it ends early then `E` holds of the reason. One rule for each step of an
execution follows; a property of whole programs is then proved by one case for each operation.
-/
import TemplateView.Run.Operation

namespace TemplateView.Execution

/-- every end of an execution from a run is as described -/
def Ends {α : Type} (E : Halt → Prop) (Q : α → Run → Prop) (m : Execution α) (r : Run) : Prop :=
  match m r with
  | .ok (a, r') => Q a r'
  | .error h => E h

section

variable {α β : Type} {E : Halt → Prop} {P Q : α → Run → Prop} {r : Run}

/-! ## Steps -/

theorem bind_run (m : Execution α) (f : α → Execution β) (r : Run) :
    (m >>= f) r =
      match m r with
      | .ok (a, r') => f a r'
      | .error h => .error h := by
  show (do let (a, s) ← m r; f a s : Except Halt (β × Run)) = _
  cases m r <;> rfl

theorem get_run (r : Run) : (get : Execution Run) r = .ok (r, r) := rfl

theorem lift_run (x : Except Halt α) (r : Run) :
    (StateT.lift x : Execution α) r =
      match x with
      | .ok a => .ok (a, r)
      | .error h => .error h := by
  cases x <;> rfl

theorem ends_ok {m : Execution α} (h : Ends E Q m r) {a : α} {r' : Run} (hm : m r = .ok (a, r')) : Q a r' := by
  rwa [Ends, hm] at h

theorem ends_error {m : Execution α} (h : Ends E Q m r) {e : Halt} (hm : m r = .error e) : E e := by
  rwa [Ends, hm] at h

theorem Ends.mono {m : Execution α} (h : Ends E P m r) (hPQ : ∀ a r', P a r' → Q a r') : Ends E Q m r := by
  unfold Ends at *
  split at h
  · exact hPQ _ _ h
  · exact h

theorem Ends.and {m : Execution α} (hP : Ends E P m r) (hQ : Ends (fun _ => True) Q m r) :
    Ends E (fun a r' => P a r' ∧ Q a r') m r := by
  unfold Ends at *
  split at hP
  · next a r' hm => rw [hm] at hQ; exact ⟨hP, hQ⟩
  · exact hP

theorem ends_pure {a : α} (h : Q a r) : Ends E Q (pure a) r := h

theorem ends_bind {m : Execution α} {f : α → Execution β} {Q : β → Run → Prop} (hm : Ends E P m r)
    (hf : ∀ a r', P a r' → Ends E Q (f a) r') : Ends E Q (m >>= f) r := by
  unfold Ends at hm ⊢
  rw [bind_run]
  cases h : m r with
  | ok p => rw [h] at hm; exact hf p.1 p.2 hm
  | error e => rw [h] at hm; exact hm

theorem ends_modify {Q : Unit → Run → Prop} {f : Run → Run} (h : Q () (f r)) : Ends E Q (modify f) r := h

theorem ends_lift {x : Except Halt α} (ho : ∀ a, x = .ok a → Q a r) (he : ∀ h, x = .error h → E h) :
    Ends E Q (StateT.lift x) r := by
  unfold Ends
  rw [lift_run]
  cases x with
  | ok a => exact ho a rfl
  | error h => exact he h rfl

theorem ends_ofResult {x : Except RenderError α} (ho : ∀ a, x = .ok a → Q a r) (he : ∀ e, x = .error e → E (.error e)) :
    Ends E Q (ofResult x) r := by
  cases x with
  | ok a => exact ho a rfl
  | error e => exact he e rfl

theorem ends_lookup {Q : Value → Run → Prop} {name : String} (ho : ∀ v, r.scopes.lookup? name = some v → Q v r)
    (he : r.scopes.lookup? name = none → E (.error (.undefinedLocal name))) : Ends E Q (lookup name) r := by
  refine ends_bind (P := fun a r' => a = r ∧ r' = r) ⟨rfl, rfl⟩ ?_
  intro _ _ hx
  obtain ⟨rfl, rfl⟩ := hx
  cases h : Scopes.lookup? name _ with
  | some v => exact ho v h
  | none => exact he h

theorem ends_assign {Q : Unit → Run → Prop} {name : String} {v : Value}
    (ho : ∀ s, r.scopes.assign? name v = some s → Q () { r with scopes := s })
    (he : r.scopes.assign? name v = none → E (.error (.undefinedLocal name))) : Ends E Q (assign name v) r := by
  refine ends_bind (P := fun a r' => a = r ∧ r' = r) ⟨rfl, rfl⟩ ?_
  intro _ _ hx
  obtain ⟨rfl, rfl⟩ := hx
  cases h : Scopes.assign? name v _ with
  | some s => exact ho s h
  | none => exact he h

/-- in a scope of its own, a step is entered with one more scope and left without the innermost one -/
theorem ends_inScope {Q : Unit → Run → Prop} {m : Execution Unit}
    (h : Ends E (fun _ r' => Q () { r' with scopes := r'.scopes.leave }) m { r with scopes := r.scopes.enter }) :
    Ends E Q (inScope m) r :=
  ends_bind (P := fun _ r' => r' = { r with scopes := r.scopes.enter }) (ends_modify rfl) fun _ r₁ h₁ => by
    subst h₁
    exact ends_bind h fun _ r₂ h₂ => ends_modify h₂

/-! ## Loops -/

/-- a loop keeps what its condition and its body keep -/
theorem ends_repeatWhile {I : Run → Prop} {condition : Execution Bool} {body : Execution Unit} (hn : E .outOfSteps)
    (hc : ∀ r, I r → Ends E (fun _ => I) condition r) (hb : ∀ r, I r → Ends E (fun _ => I) body r) (n : Nat) :
    ∀ r, I r → Ends E (fun _ => I) (repeatWhile condition body n) r := by
  induction n with
  | zero => exact fun r _ => hn
  | succ n ih =>
    intro r hr
    rw [repeatWhile]
    refine ends_bind (hc r hr) fun b r₁ h₁ => ?_
    cases b with
    | true => exact ends_bind (hb r₁ h₁) fun _ r₂ h₂ => ih r₂ h₂
    | false => exact ends_pure h₁

/-- a walk over items keeps what the step for each item keeps -/
theorem ends_forM {I : Run → Prop} {f : β → Execution Unit} (items : List β)
    (hf : ∀ b ∈ items, ∀ r, I r → Ends E (fun _ => I) (f b) r) :
    ∀ r, I r → Ends E (fun _ => I) (items.forM f) r := by
  induction items with
  | nil => exact fun r hr => ends_pure hr
  | cons b bs ih =>
    intro r hr
    show Ends E (fun _ => I) (f b >>= fun _ => bs.forM f) r
    exact ends_bind (hf b List.mem_cons_self r hr) fun _ r₁ h₁ =>
      ih (fun c hc => hf c (List.mem_cons_of_mem b hc)) r₁ h₁

end

end TemplateView.Execution
