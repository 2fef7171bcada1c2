/-
Errors of operations on values. They speak of members, methods, items and kinds of values, and of nothing else: only a look
at the scopes can miss a variable, and only a call can miss a helper or nest too deep.
-/
import TemplateView.Run.Expression

namespace TemplateView

/-- the reason is not that a variable is missing -/
def Halt.Defined (h : Halt) : Prop := ∀ name, h ≠ .error (.undefinedLocal name)

/-- a failure of the computation does not say that a variable is missing -/
def FindsAll {α : Type} (x : Except RenderError α) : Prop := ∀ e, x = .error e → (Halt.error e).Defined

/-- an operation on values can fail for this reason -/
def RenderError.OfValues : RenderError → Prop
  | nullReference _ | unknownMethod _ _ | notIterable _ | type _ => True
  | _ => False

theorem RenderError.OfValues.defined {e : RenderError} (h : e.OfValues) : (Halt.error e).Defined := by
  intro name hn
  cases hn
  exact h

namespace Value

theorem ofValues_member {v : Value} {name : String} {e : RenderError} (h : v.member name = .error e) : e.OfValues := by
  cases v <;> cases h
  trivial

theorem ofValues_index {v key : Value} {e : RenderError} (h : v.index key = .error e) : e.OfValues := by
  unfold index at h
  split at h
  · cases h; trivial
  · cases h
  · cases h
  · cases h
  · exact ofValues_member h

theorem ofValues_iterate {v : Value} {e : RenderError} (h : v.iterate = .error e) : e.OfValues := by
  cases v <;> cases h <;> trivial

theorem ofValues_callMethod {v : Value} {name : String} {arguments : List Value} {e : RenderError}
    (h : v.callMethod name arguments = .error e) : e.OfValues := by
  unfold callMethod at h
  split at h
  · cases h; trivial
  · split at h
    · cases h
    · cases h; trivial

theorem ofValues_operand {op : BinaryOperator} {v : Value} {e : RenderError} (h : operand op v = .error e) :
    e.OfValues := by
  cases v <;> cases h <;> trivial

theorem ofValues_arithmetic {op : BinaryOperator} {f : Float → Float → Float} {v w : Value} {e : RenderError}
    (h : arithmetic op f v w = .error e) : e.OfValues := by
  unfold arithmetic at h
  cases hx : operand op v with
  | error e' =>
    rw [hx] at h
    cases h
    exact ofValues_operand hx
  | ok x =>
    rw [hx] at h
    cases hy : operand op w with
    | error e' =>
      rw [hy] at h
      cases h
      exact ofValues_operand hy
    | ok y => rw [hy] at h; cases h

theorem ofValues_binary {op : BinaryOperator} {v w : Value} {e : RenderError} (h : binary op v w = .error e) :
    e.OfValues := by
  cases op with
  | add =>
    simp only [binary, add] at h
    split at h
    · cases h
    · exact ofValues_arithmetic h
  | subtract => exact ofValues_arithmetic h
  | multiply => exact ofValues_arithmetic h
  | divide => exact ofValues_arithmetic h
  | remainder => exact ofValues_arithmetic h
  | _ => cases h

theorem ofValues_unary {op : UnaryOperator} {v : Value} {e : RenderError} (h : op.apply v = .error e) : e.OfValues := by
  cases op with
  | negate => cases v <;> cases h <;> trivial
  | _ => cases h

end Value

end TemplateView
