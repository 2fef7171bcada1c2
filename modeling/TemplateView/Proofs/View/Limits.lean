/-
Limits on a rendering. Two of them bound how long one can take: how deep calls of helpers may nest, and how often a loop
may look at its condition.
- `endings_without_loops`: where no program of a view has a loop, the second bound is not needed. Whatever the helpers call,
  the rendering ends with a result or an error of the template, the same for every bound.
- `deeper_limit`: under a limit that lets calls nest deeper, a rendering gives what it gave, unless it had ended at the
  first limit.
-/
import TemplateView.Proofs.View.Tracking

namespace TemplateView

/-- all expressions are of the kind that is no restriction -/
theorem Expr.every_true (e : Expr) : e.Every fun _ => True := Expr.every_of_forall (fun _ => trivial) e

/-- early ends that are errors of the template -/
def Halt.IsError : Halt → Prop
  | .error _ => True
  | .outOfSteps => False

/-- an outcome whose early ends are errors of the template is a result or such an error -/
theorem exists_ofError {α : Type} {x : Except Halt α} (h : ∀ e, x = .error e → e.IsError) :
    ∃ result : Except RenderError α, x = Halt.ofError result := by
  cases x with
  | ok a => exact ⟨.ok a, rfl⟩
  | error e =>
    cases e with
    | error e => exact ⟨.error e, rfl⟩
    | outOfSteps => exact (h _ rfl).elim

/-- calls were nested as deep as the limit allows -/
def Halt.AtLimit (limit : Nat) (h : Halt) : Prop := ∃ name, h = .error (.recursionLimit name limit)

namespace View

open Generation

variable {v : View}

/-! ## Views without loops -/

theorem confined_without_loops (hl : ∀ op ∈ v.ops, op.isLoop = false) :
    v.Confined Halt.IsError (fun _ => True) False where
  values := fun _ _ => trivial
  scopes := fun _ => trivial
  ops := by
    intro op ho
    refine ⟨fun e _ => Expr.every_true e, fun hx => ?_⟩
    rw [hl op ho] at hx
    cases hx
  host := fun _ _ _ _ _ _ => trivial
  builtin := fun _ _ => trivial
  unknown := fun _ _ _ _ => trivial

/-- **Rendering without loops always ends.** In a view without a loop in its program, its helpers and its sections, every
rendering ends with a result or an error of the template, however the helpers call themselves and each other: the program
for every model and context, each section, and each call. No bound on the rounds of loops has a part in it, since the
outcome is the same for all of them. -/
theorem endings_without_loops (v : View) (hl : ∀ op ∈ v.ops, op.isLoop = false) (model : Json) :
    (∀ context, ∃ result : Except RenderError String, ∀ steps,
      v.renderWith steps model context = Halt.ofError result) ∧
    (∀ name, ∃ result : Except RenderError String, ∀ steps, v.renderSection steps model name = Halt.ofError result) ∧
    ∀ name arguments, ∃ result : Except RenderError Value, ∀ steps,
      v.callHelper steps model name arguments = Halt.ofError result := by
  have hv := confined_without_loops hl
  have hlimit : Levels (fun _ => False) Halt.IsError v.maxCallDepth v.maxCallDepth v.maxCallDepth v.maxCallDepth :=
    Or.inl ⟨rfl, rfl, fun _ => trivial⟩
  -- an outcome with no bound at all on the rounds is an error of the template, or it is that of every other bound
  have key : ∀ {α : Type} (x : Nat → Except Halt α), (∀ steps, Tracks (fun _ => False) Halt.IsError (x 0) (x steps)) →
      ∃ result : Except RenderError α, ∀ steps, x steps = Halt.ofError result := by
    intro α x hx
    obtain ⟨result, hr⟩ := exists_ofError (hx 0).eq.2
    exact ⟨result, fun steps => (hx steps).eq.1.symm.trans hr⟩
  have ho : ∀ context steps, Occasion.Matches Halt.IsError (fun _ => True) False ⟨.ofJson model, context, 0⟩
      ⟨.ofJson model, context, steps⟩ := fun _ _ => ⟨rfl, .refl _ _, False.elim⟩
  refine ⟨fun context => key _ fun steps => ?_, fun name => key _ fun steps => ?_,
    fun name arguments => key _ fun steps => ?_⟩
  · exact tracks_renderWith hv (ho context steps) hlimit
  · exact tracks_renderSection hv (ho .empty steps) hlimit name
  · exact tracks_callHelper hv (ho .empty steps) hlimit [] trivial arguments

/-- two helpers that call each other without end, in an attribute and for each character of a text -/
def mirrors : String :=
  "@helper left(x) \x7b<i title='@right(x)'></i>\x7d@helper right(x) \x7b@foreach(var y in x)\x7b@left(y)\x7d\x7d" ++
    "@if(open)\x7b@left(right(open))\x7d"

theorem endings_without_loops_mirrors :
    ∃ view, compile ⟨.identity, 3⟩ mirrors = .ok view ∧ (∀ op ∈ view.ops, op.isLoop = false) ∧
      (view.callHelper 0 .null "left" [.string "ab"]).toOption.isNone ∧
      ∃ result : Except RenderError Value, ∀ steps,
        view.callHelper steps .null "left" [.string "ab"] = Halt.ofError result := by
  obtain ⟨view, h, hv⟩ := exists_ok (x := compile ⟨.identity, 3⟩ mirrors)
    (p := fun view => (view.ops.all fun op => !op.isLoop) &&
      (view.callHelper 0 .null "left" [.string "ab"]).toOption.isNone) (by decide +kernel)
  obtain ⟨hl, hc⟩ := Bool.and_eq_true_iff.1 hv
  have hloops : ∀ op ∈ view.ops, op.isLoop = false := by
    intro op ho
    simpa using List.all_eq_true.1 hl op ho
  exact ⟨view, h, hloops, hc, (endings_without_loops view hloops .null).2.2 "left" [.string "ab"]⟩

/-! ## Deeper calls -/

/-- every view is confined where nothing is asked -/
theorem confined_any (v : View) : v.Confined (fun _ => True) (fun _ => True) True where
  values := fun _ _ => trivial
  scopes := fun _ => trivial
  ops := fun _ _ => ⟨fun e _ => Expr.every_true e, fun _ => trivial⟩
  host := fun _ _ _ _ _ _ => trivial
  builtin := fun _ _ => trivial
  unknown := fun _ _ _ _ => trivial

/-- **A deeper limit changes nothing but the error of the limit.** Let a view be rendered under two limits. Unless it ends
under the smaller one since calls were nested as deep as that allows, it ends under the larger one in the same way, with
the same markup, value or error: the program for every model and context, each section, and each call. -/
theorem deeper_limit (v : View) {n m : Nat} (h : n ≤ m) (steps : Nat) (model : Json) :
    (∀ context, (v.withDepth n).renderWith steps model context = (v.withDepth m).renderWith steps model context ∨
      ∃ name, (v.withDepth n).renderWith steps model context = .error (.error (.recursionLimit name n))) ∧
    (∀ part, (v.withDepth n).renderSection steps model part = (v.withDepth m).renderSection steps model part ∨
      ∃ name, (v.withDepth n).renderSection steps model part = .error (.error (.recursionLimit name n))) ∧
    ∀ helper arguments,
      (v.withDepth n).callHelper steps model helper arguments = (v.withDepth m).callHelper steps model helper arguments ∨
      ∃ name, (v.withDepth n).callHelper steps model helper arguments = .error (.error (.recursionLimit name n)) := by
  have hv := confined_any v
  have hlimit : Levels (Halt.AtLimit n) (fun _ => True) n m n m := Or.inr ⟨h, fun name => ⟨name, rfl⟩⟩
  have ho : ∀ o : Occasion, o.Matches (fun _ => True) (fun _ => True) True o := Occasion.matches_self trivial _
  have key : ∀ {α : Type} {x y : Except Halt α}, Tracks (Halt.AtLimit n) (fun _ => True) x y →
      x = y ∨ ∃ name, x = .error (.error (.recursionLimit name n)) := by
    rintro α x y (⟨he, -⟩ | ⟨_, he, name, rfl⟩)
    · exact Or.inl he
    · exact Or.inr ⟨name, he⟩
  refine ⟨fun context => key ?_, fun part => key ?_, fun helper arguments => key ?_⟩
  · exact tracks_renderWith hv (ho _) hlimit
  · exact tracks_renderSection hv (ho _) hlimit part
  · exact tracks_callHelper hv (ho _) hlimit [] trivial arguments

/-- a helper that calls itself for each item of its argument -/
def nest : String := "@helper nest(xs) \x7b<i>@foreach(var x in xs)\x7b@nest(x)\x7d</i>\x7d@nest(list)"

theorem deeper_limit_nest :
    2 ≤ 64 ∧ ∃ view, compile .default nest = .ok view ∧
      ∃ html, (view.withDepth 2).renderWith 9 (.object [("list", .array [.array []])]) .empty = .ok html ∧
        (view.withDepth 64).renderWith 9 (.object [("list", .array [.array []])]) .empty = .ok html := by
  obtain ⟨view, h, hv⟩ := exists_ok (x := compile .default nest)
    (p := fun view =>
      ((view.withDepth 2).renderWith 9 (.object [("list", .array [.array []])]) .empty).toOption.any fun html =>
        html == "<i><i></i></i>") (by decide +kernel)
  obtain ⟨html, hr, -⟩ := exists_ok hv
  refine ⟨by decide, view, h, html, hr, ?_⟩
  rcases (deeper_limit view (by decide : 2 ≤ 64) 9 (.object [("list", .array [.array []])])).1 .empty with he | ⟨name, he⟩
  · rw [← he, hr]
  · rw [hr] at he
    cases he

end View

end TemplateView
