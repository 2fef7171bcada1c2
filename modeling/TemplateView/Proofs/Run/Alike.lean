/-
Executions that are alike. `Alike E Q m m' r` says that two executions give the same from a run, and that they end as
described there; one rule for each step lets two interpreters be compared along their definitions.

Operations that a builder has packed run like the operations before packing: neighbouring texts are written in one step,
and a text without characters not at all.
-/
import TemplateView.Proofs.Generation.Sited
import TemplateView.Proofs.Run.Outcome

namespace TemplateView

namespace Execution

/-- both give the same from a run, and what they give is as described -/
structure Alike {α : Type} (E : Halt → Prop) (Q : α → Run → Prop) (m m' : Execution α) (r : Run) : Prop where
  same : m r = m' r
  ends : Ends E Q m' r

section

variable {α β : Type} {E : Halt → Prop} {P Q : α → Run → Prop} {r : Run}

theorem alike_refl {m : Execution α} (h : Ends E Q m r) : Alike E Q m m r := ⟨rfl, h⟩

theorem Alike.mono {m m' : Execution α} (h : Alike E P m m' r) (hPQ : ∀ a r', P a r' → Q a r') : Alike E Q m m' r :=
  ⟨h.same, h.ends.mono hPQ⟩

theorem alike_bind {m m' : Execution α} {f f' : α → Execution β} {Q : β → Run → Prop} (hm : Alike E P m m' r)
    (hf : ∀ a r', P a r' → Alike E Q (f a) (f' a) r') : Alike E Q (m >>= f) (m' >>= f') r := by
  refine ⟨?_, ends_bind hm.ends fun a r' h => (hf a r' h).ends⟩
  rw [bind_run, bind_run, hm.same]
  cases h : m' r with
  | ok p => exact (hf p.1 p.2 (ends_ok hm.ends h)).same
  | error e => rfl

theorem alike_inScope {Q : Unit → Run → Prop} {m m' : Execution Unit}
    (h : Alike E (fun _ r' => Q () { r' with scopes := r'.scopes.leave }) m m' { r with scopes := r.scopes.enter }) :
    Alike E Q (inScope m) (inScope m') r := by
  have he : Alike E (fun _ r' => r' = { r with scopes := r.scopes.enter }) (changeScopes .enter) (changeScopes .enter) r :=
    alike_refl (ends_modify rfl)
  refine alike_bind he ?_
  intro _ _ hq
  subst hq
  exact alike_bind h fun _ _ h' => alike_refl (ends_modify h')

theorem alike_repeatWhile {I : Run → Prop} {condition condition' : Execution Bool} {body body' : Execution Unit}
    (hn : E .outOfSteps) (hc : ∀ r, I r → Alike E (fun _ => I) condition condition' r)
    (hb : ∀ r, I r → Alike E (fun _ => I) body body' r) (n : Nat) :
    ∀ r, I r → Alike E (fun _ => I) (repeatWhile condition body n) (repeatWhile condition' body' n) r := by
  induction n with
  | zero => exact fun r _ => alike_refl hn
  | succ n ih =>
    intro r hr
    rw [repeatWhile, repeatWhile]
    refine alike_bind (hc r hr) fun b r₁ h₁ => ?_
    cases b with
    | true => exact alike_bind (hb r₁ h₁) fun _ r₂ h₂ => ih r₂ h₂
    | false => exact alike_refl (ends_pure h₁)

theorem alike_forM {I : Run → Prop} {f f' : β → Execution Unit} (items : List β)
    (hf : ∀ b ∈ items, ∀ r, I r → Alike E (fun _ => I) (f b) (f' b) r) :
    ∀ r, I r → Alike E (fun _ => I) (items.forM f) (items.forM f') r := by
  induction items with
  | nil => exact fun r hr => alike_refl (ends_pure hr)
  | cons b bs ih =>
    intro r hr
    show Alike E (fun _ => I) (f b >>= fun _ => bs.forM f) (f' b >>= fun _ => bs.forM f') r
    exact alike_bind (hf b List.mem_cons_self r hr) fun _ r₁ h₁ =>
      ih (fun c hc => hf c (List.mem_cons_of_mem b hc)) r₁ h₁

end

/-- the markup that an execution writes, started with some variables -/
def html (initial : Table Value) (m : Execution Unit) : Except Halt String := do
  let ((), r) ← m.run { Run.start with scopes := [initial] }
  return r.html

theorem html_eq (initial : Table Value) (m : Execution Unit) :
    html initial m = (m { Run.start with scopes := [initial] }).map fun p => p.2.html := by
  unfold html
  show (do let ((), r) ← m _; return r.html : Except Halt String) = _
  cases m { Run.start with scopes := [initial] } <;> rfl

theorem alike_html {E : Halt → Prop} {Q : Unit → Run → Prop} {initial : Table Value} {m m' : Execution Unit}
    (h : Alike E Q m m' { Run.start with scopes := [initial] }) :
    html initial m = html initial m' ∧ ∀ e, html initial m' = .error e → E e := by
  have hm : html initial m = html initial m' := by rw [html_eq, html_eq, h.same]
  refine ⟨hm, fun e he => ?_⟩
  rw [html_eq] at he
  cases hr : m' { Run.start with scopes := [initial] } with
  | ok p => rw [hr] at he; cases he
  | error e' =>
    rw [hr] at he
    cases he
    exact ends_error h.ends hr

end Execution

open Execution

/-! ## Packed operations -/

theorem write_empty : write "" = pure () := by
  funext r
  show (Except.ok ((), { r with html := r.html ++ "" }) : Except Halt (Unit × Run)) = .ok ((), r)
  rw [String.append_empty]

theorem write_append (s t : String) : (write s >>= fun _ => write t) = write (s ++ t) := by
  funext r
  show (Except.ok ((), { r with html := r.html ++ s ++ t }) : Except Halt (Unit × Run)) =
    .ok ((), { r with html := r.html ++ (s ++ t) })
  rw [String.append_assoc]

theorem execAll_append (env : Surroundings) (ops more : List Op) :
    Op.execAll env (ops ++ more) = (Op.execAll env ops >>= fun _ => Op.execAll env more) := by
  induction ops with
  | nil => rfl
  | cons op ops ih =>
    have h : Op.execAll env (op :: ops ++ more) = (op.exec env >>= fun _ => Op.execAll env (ops ++ more)) := by
      rw [List.cons_append, Op.execAll]
    rw [h, ih, Op.execAll, bind_assoc]

theorem execAll_singleton (env : Surroundings) (op : Op) : Op.execAll env [op] = op.exec env := by
  have h : Op.execAll env [op] = (op.exec env >>= fun _ => pure ()) := by rw [Op.execAll]; rfl
  rw [h]
  exact bind_pure _

/-- an operation that a builder puts behind others runs behind them -/
theorem execAll_add (env : Surroundings) (ops : List Op) (op : Op) :
    Op.execAll env (Op.add ops op) = (Op.execAll env ops >>= fun _ => op.exec env) := by
  have key : Op.execAll env (ops ++ [op]) = (Op.execAll env ops >>= fun _ => op.exec env) := by
    rw [execAll_append, execAll_singleton]
  unfold Op.add
  split
  · next s =>
    split
    · next hs =>
      rw [String.isEmpty_iff.1 hs, Op.exec, write_empty]
      exact (bind_pure _).symm
    · unfold Builder.appendText
      split
      · next previous h =>
        obtain ⟨init, rfl⟩ := List.getLast?_eq_some_iff.1 h
        rw [List.dropLast_concat, execAll_append, execAll_append, execAll_singleton, execAll_singleton, bind_assoc]
        simp only [Op.exec, write_append]
      · exact key
  · exact key

theorem execAll_pack (env : Surroundings) (ops more : List Op) :
    Op.execAll env (Op.pack ops more) = (Op.execAll env ops >>= fun _ => Op.execAll env more) := by
  induction more generalizing ops with
  | nil => exact (bind_pure _).symm
  | cons op more ih =>
    rw [Op.pack, List.foldl_cons, ← Op.pack, ih, execAll_add, bind_assoc, Op.execAll]

/-- **Packed operations run like the operations themselves.** -/
theorem execAll_packed (env : Surroundings) (ops : List Op) : Op.execAll env (Op.pack [] ops) = Op.execAll env ops :=
  execAll_pack env [] ops

end TemplateView
