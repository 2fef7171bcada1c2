/-
Evaluation of expressions in a run. Operands are taken from left to right; `&&`, `||` and the conditional leave out
what they do not need. Only updates, assignments and calls of helpers do more than give a value, and a helper runs
apart, so nothing but variables changes here.
-/
import TemplateView.Run
import TemplateView.Program
import TemplateView.Value.Methods

namespace TemplateView

open Execution

/-- a left operand that is the result already -/
def BinaryOperator.stopsAt (op : BinaryOperator) (left : Value) : Bool :=
  match op with
  | .and => !left.isTruthy
  | .or => left.isTruthy
  | _ => false

/-- an operator in front of a value -/
def UnaryOperator.apply (op : UnaryOperator) (v : Value) : Except RenderError Value :=
  match op with
  | .not => .ok (.bool (!v.isTruthy))
  | .negate => v.negate
  | .new => .ok v

/-- a number counted on -/
def Step.apply (step : Step) (x : Float) : Float :=
  match step with
  | .increment => x + 1
  | .decrement => x - 1

/-- counts a variable on; the result is the number before or after, as the operator stands -/
def Execution.update (name : String) (step : Step) (fixity : Fixity) : Execution Value := do
  let old := (← lookup name).toNumber
  let new := step.apply old
  assign name (.number new)
  return .number (match fixity with
    | .before => new
    | .after => old)

mutual

/-- the value of an expression -/
def Expr.eval (env : Surroundings) : Expr → Execution Value
  | .constant v => return v
  | .local name => lookup name
  | .model name => return env.model.property name
  | .modelRoot => return env.model
  | .member object name => do
    let v ← object.eval env
    ofResult (v.member name)
  | .index target key => do
    let v ← target.eval env
    let k ← key.eval env
    ofResult (v.index k)
  | .callHelper name arguments => do
    let vs ← Expr.evalAll env arguments
    StateT.lift (env.call name vs)
  | .callMethod receiver name arguments => do
    let v ← receiver.eval env
    let vs ← Expr.evalAll env arguments
    ofResult (v.callMethod name vs)
  | .array items => do return .array (← Expr.evalAll env items)
  | .unary op operand => do
    let v ← operand.eval env
    ofResult (op.apply v)
  | .update name step fixity => Execution.update name step fixity
  | .binary left op right => do
    let v ← left.eval env
    if op.stopsAt v then return v
    else
      let w ← right.eval env
      ofResult (Value.binary op v w)
  | .assign name value => do
    let v ← value.eval env
    Execution.assign name v
    return v
  | .conditional test whenTrue whenFalse => do
    let v ← test.eval env
    if v.isTruthy then whenTrue.eval env else whenFalse.eval env

def Expr.evalAll (env : Surroundings) : List Expr → Execution (List Value)
  | [] => return []
  | e :: es => do
    let v ← e.eval env
    return v :: (← Expr.evalAll env es)

end

/-- the value of an expression that may be missing -/
def Expr.evalOption (env : Surroundings) : Option Expr → Execution Value
  | none => return .null
  | some e => e.eval env

/-- whether a condition holds -/
def Expr.holds (env : Surroundings) (e : Expr) : Execution Bool := do
  return (← e.eval env).isTruthy

end TemplateView
