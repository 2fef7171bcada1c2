/-
Programs that templates are compiled to. A program is a list of operations that write markup; its expressions say of
every name whether it is a local variable or a property of the model.
-/
import TemplateView.Operator
import TemplateView.Value

namespace TemplateView

/-- an expression of a program -/
inductive Expr where
  | constant (v : Value)
  /-- a variable declared in the template -/
  | local (name : String)
  /-- a property of the model -/
  | model (name : String)
  /-- the model itself -/
  | modelRoot
  | member (object : Expr) (name : String)
  | index (target key : Expr)
  /-- a call of a builtin or of a helper -/
  | callHelper (name : String) (arguments : List Expr)
  | callMethod (receiver : Expr) (name : String) (arguments : List Expr)
  | array (items : List Expr)
  | unary (operator : UnaryOperator) (operand : Expr)
  /-- `++` or `--` on a local -/
  | update (name : String) (step : Step) (fixity : Fixity)
  | binary (left : Expr) (operator : BinaryOperator) (right : Expr)
  | assign (name : String) (value : Expr)
  | conditional (test whenTrue whenFalse : Expr)

/-- a piece of an attribute value -/
inductive AttributePart where
  | text (text : String)
  | value (value : Expr)

/-- an operation of a program -/
inductive Op where
  /-- writes markup -/
  | text (text : String)
  /-- writes the escaped value -/
  | emit (value : Expr)
  /-- starts to collect the parts of an attribute -/
  | beginAttribute (opening : String)
  | attributePart (part : AttributePart)
  /-- writes the attribute with its parts between spaces, or nothing if no part has text -/
  | endAttribute (closing : String)
  | declare (name : String) (init : Option Expr)
  /-- evaluates for its effect -/
  | eval (value : Expr)
  | branch (test : Expr) (whenTrue whenFalse : List Op)
  | loop (counter : String) (init : Option Expr) (condition iteration : Expr) (body : List Op)
  | each (item : String) (collection : Expr) (body : List Op)

/-- the body of a view, a helper or a section -/
abbrev Program := List Op

/-- a program that is called with arguments -/
structure Fragment where
  parameters : List String
  program : Program

mutual

/-- the number of operations, those in bodies included -/
def Op.size : Op → Nat
  | .branch _ whenTrue whenFalse => 1 + Op.sizes whenTrue + Op.sizes whenFalse
  | .loop _ _ _ _ body => 1 + Op.sizes body
  | .each _ _ body => 1 + Op.sizes body
  | _ => 1

def Op.sizes : List Op → Nat
  | [] => 0
  | op :: ops => op.size + Op.sizes ops

end

end TemplateView
