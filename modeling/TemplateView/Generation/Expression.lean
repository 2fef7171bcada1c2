/-
Expressions of a program from expressions of a template. A bare name is a local if it is declared where it stands, and
else a property of the model; `model` is the model itself. Names of properties and methods go through the casing, names
of locals and helpers stay as written.

The right operand of a binary operator is taken before the left one, and the arguments of a call before its receiver:
of two faults that order decides which is reported.
-/
import TemplateView.Template
import TemplateView.Diagnostic
import TemplateView.Options
import TemplateView.Program
import TemplateView.Generation.Literal

namespace TemplateView.Generation

/-- what the names in an expression mean -/
structure Naming where
  casing : Casing
  /-- the locals declared where the expression stands -/
  isLocal : String → Bool

namespace Naming

/-- the meaning of a bare name -/
def resolve (n : Naming) (name : String) : Expr :=
  if n.isLocal name then .local name
  else if n.casing.apply name = "model" then .modelRoot
  else .model (n.casing.apply name)

/-- the local that an update or an assignment changes -/
def target? (n : Naming) : Expression → Option String
  | .name name _ => if n.isLocal name then some name else none
  | _ => none

theorem target?_eq_some {n : Naming} {e : Expression} {name : String} (h : n.target? e = some name) :
    n.isLocal name = true ∧ ∃ p, e = .name name p := by
  cases e with
  | name x p =>
    obtain ⟨hx, ⟨⟩⟩ := Option.ite_none_right_eq_some.1 h
    exact ⟨hx, p, rfl⟩
  | _ => cases h

/-- counting a local up or down -/
def update (n : Naming) (step : Step) (fixity : Fixity) (operand : Expression) : Except GenerationCause Expr :=
  match n.target? operand with
  | some name => .ok (.update name step fixity)
  | none => .error (.updateTarget step)

/-- an assignment of a value, given the text of its operator -/
def assignment (n : Naming) (target : Expression) (operator : String) (value : Expr) : Except GenerationCause Expr :=
  match compound? operator with
  | none => .error (.unsupportedOperator operator)
  | some compound =>
    match n.target? target with
    | none => .error .assignTarget
    | some name =>
      if compound.isEmpty then .ok (.assign name value)
      else
        match BinaryOperator.ofText? compound with
        | some op => .ok (.assign name (.binary (.local name) op value))
        | none => .error (.unsupportedOperator operator)

mutual

/-- an expression of a template in a program -/
def expression (n : Naming) : Expression → Except GenerationCause Expr
  | .name name _ => .ok (n.resolve name)
  | .member object name _ => do return .member (← n.expression object) (n.casing.apply name)
  | .literal raw =>
    match literalValue? raw with
    | some v => .ok (.constant v)
    | none => .error (.invalidLiteral raw)
  | .call callee arguments => do
    let arguments ← n.expressions arguments
    match callee with
    | .name name _ => if n.isLocal name then .error (.calledLocal name) else .ok (.callHelper name arguments)
    | .member object name _ => return .callMethod (← n.expression object) (n.casing.apply name) arguments
    | _ => .error .notCallable
  | .index target key => do
    let target ← n.expression target
    return .index target (← n.expression key)
  | .array items => do return .array (← n.expressions items)
  | .unary operator fixity operand =>
    match UnaryOperator.ofText? operator, Step.ofText? operator with
    | some op, _ => do return .unary op (← n.expression operand)
    | none, some step => n.update step fixity operand
    | none, none => .error (.unsupportedUnary operator)
  | .binary left operator right => do
    let right ← n.expression right
    match BinaryOperator.ofText? operator with
    | some op => return .binary (← n.expression left) op right
    | none => n.assignment left operator right
  | .conditional test whenTrue whenFalse => do
    let test ← n.expression test
    let whenTrue ← n.expression whenTrue
    return .conditional test whenTrue (← n.expression whenFalse)

def expressions (n : Naming) : List Expression → Except GenerationCause (List Expr)
  | [] => .ok []
  | e :: es => do
    let e ← n.expression e
    return e :: (← n.expressions es)

end

/-! ## Operators -/

variable {n : Naming} {operator : String}

/-- how an operator beside its operand is lowered: to an operation, or to an update of the local that it stands beside -/
inductive LowersUnary (n : Naming) (operator : String) (fixity : Fixity) (operand : Expression) : Expr → Prop
  | apply {op : UnaryOperator} {x : Expr} (ho : UnaryOperator.ofText? operator = some op)
    (hx : n.expression operand = .ok x) : LowersUnary n operator fixity operand (.unary op x)
  | update {step : Step} {name : String} {p : Position} (hs : Step.ofText? operator = some step)
    (ht : operand = .name name p) (hl : n.isLocal name = true) :
    LowersUnary n operator fixity operand (.update name step fixity)

/-- how an operator between two operands is lowered: to an operation, or to an assignment to the local on its left -/
inductive LowersBinary (n : Naming) (left : Expression) (operator : String) (right : Expression) : Expr → Prop
  | apply {op : BinaryOperator} {x y : Expr} (ho : BinaryOperator.ofText? operator = some op)
    (hx : n.expression left = .ok x) (hy : n.expression right = .ok y) :
    LowersBinary n left operator right (.binary x op y)
  | set {name : String} {p : Position} {y : Expr} (ho : compound? operator = some "") (ht : left = .name name p)
    (hl : n.isLocal name = true) (hy : n.expression right = .ok y) :
    LowersBinary n left operator right (.assign name y)
  | combine {name compound : String} {p : Position} {op : BinaryOperator} {y : Expr}
    (hn : BinaryOperator.ofText? operator = none) (hc : compound? operator = some compound)
    (ho : BinaryOperator.ofText? compound = some op) (ht : left = .name name p) (hl : n.isLocal name = true)
    (hy : n.expression right = .ok y) :
    LowersBinary n left operator right (.assign name (.binary (.local name) op y))

theorem lowersUnary_of_ok {fixity : Fixity} {operand : Expression} {x : Expr}
    (h : n.expression (.unary operator fixity operand) = .ok x) : n.LowersUnary operator fixity operand x := by
  rw [expression] at h
  split at h
  · next op _ ho =>
    cases hx : n.expression operand with
    | error c => rw [hx] at h; cases h
    | ok o => rw [hx] at h; cases h; exact .apply ho hx
  · next step _ hs =>
    unfold update at h
    split at h
    · next name ht =>
      cases h
      obtain ⟨hl, p, rfl⟩ := target?_eq_some ht
      exact .update hs rfl hl
    · cases h
  · cases h

theorem lowersBinary_of_ok {left right : Expression} {x : Expr}
    (h : n.expression (.binary left operator right) = .ok x) : n.LowersBinary left operator right x := by
  rw [expression] at h
  cases hy : n.expression right with
  | error c => rw [hy] at h; cases h
  | ok y =>
    rw [hy] at h
    replace h : (match BinaryOperator.ofText? operator with
      | some op => do return .binary (← n.expression left) op y
      | none => n.assignment left operator y : Except GenerationCause Expr) = .ok x := h
    split at h
    · next op ho =>
      cases hx : n.expression left with
      | error c => rw [hx] at h; cases h
      | ok l => rw [hx] at h; cases h; exact .apply ho hx hy
    · next hn =>
      unfold assignment at h
      split at h
      · cases h
      next compound hc =>
      split at h
      · cases h
      next name ht =>
      obtain ⟨hl, p, rfl⟩ := target?_eq_some ht
      split at h
      · next he =>
        cases h
        exact .set (String.isEmpty_iff.1 he ▸ hc) rfl hl hy
      · split at h
        · next op ho =>
          cases h
          exact .combine hn hc ho rfl hl hy
        · cases h

end Naming

end TemplateView.Generation
