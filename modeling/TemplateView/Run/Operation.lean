/-
Execution of operations in a run. Bodies have scopes of their own; a loop has one more around all its rounds, for its
counter. A value inside an attribute is dropped unless it counts as true.
-/
import TemplateView.Run.Expression

namespace TemplateView

open Execution

/-- the text of a piece of an attribute value -/
def AttributePart.shown (env : Surroundings) : AttributePart → Execution String
  | .text s => return s
  | .value e => do
    let v ← e.eval env
    return if v.isTruthy then v.escaped else ""

mutual

/-- the effect of an operation -/
def Op.exec (env : Surroundings) : Op → Execution Unit
  | .text s => write s
  | .emit value => do
    let v ← value.eval env
    write v.escaped
  | .beginAttribute opening => modify fun r => { r with pending := some ⟨opening, []⟩ }
  | .attributePart part => do
    let s ← part.shown env
    modify (·.addPart s)
  | .endAttribute closing => modify (·.closeAttribute closing)
  | .declare name init => do
    let v ← Expr.evalOption env init
    changeScopes (·.declare name v)
  | .eval value => do
    let _ ← value.eval env
  | .branch test whenTrue whenFalse => do
    if ← test.holds env then inScope (Op.execAll env whenTrue) else inScope (Op.execAll env whenFalse)
  | .loop counter init condition iteration body =>
    inScope do
      let v ← Expr.evalOption env init
      changeScopes (·.declare counter v)
      repeatWhile (condition.holds env) (do
        inScope (Op.execAll env body)
        let _ ← iteration.eval env) env.steps
  | .each item collection body => do
    let v ← collection.eval env
    let items ← ofResult v.iterate
    items.forM fun v => inScope do
      changeScopes (·.declare item v)
      Op.execAll env body

def Op.execAll (env : Surroundings) : List Op → Execution Unit
  | [] => return ()
  | op :: ops => do
    op.exec env
    Op.execAll env ops

end

/-- the markup that a program writes, started with some variables -/
def Program.run (env : Surroundings) (initial : Table Value) (program : Program) : Except Halt String := do
  let ((), r) ← (Op.execAll env program).run { Run.start with scopes := [initial] }
  return r.html

/-- the markup that a helper or a section writes for some arguments; missing ones are null, more are passed over -/
def Fragment.run (env : Surroundings) (f : Fragment) (arguments : List Value) : Except Halt String :=
  let values := arguments ++ List.replicate f.parameters.length .null
  f.program.run env (Table.ofList (f.parameters.zip values))

end TemplateView
