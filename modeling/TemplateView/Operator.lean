/-
The operators of programs, with the texts that write them. A template keeps its operators as texts; `ofText?` gives the
operator that a text stands for, and `compound?` what an assignment combines the old value with.
-/
namespace TemplateView

/-- operators between two values -/
inductive BinaryOperator where
  | or
  | and
  | equal
  | notEqual
  | strictEqual
  | strictNotEqual
  | less
  | greater
  | lessEqual
  | greaterEqual
  | add
  | subtract
  | multiply
  | divide
  | remainder
deriving DecidableEq, Repr

namespace BinaryOperator

def text : BinaryOperator → String
  | or => "||"
  | and => "&&"
  | equal => "=="
  | notEqual => "!="
  | strictEqual => "==="
  | strictNotEqual => "!=="
  | less => "<"
  | greater => ">"
  | lessEqual => "<="
  | greaterEqual => ">="
  | add => "+"
  | subtract => "-"
  | multiply => "*"
  | divide => "/"
  | remainder => "%"

/-- the operator that a text writes -/
def ofText? : String → Option BinaryOperator
  | "+" => some add
  | "-" => some subtract
  | "*" => some multiply
  | "/" => some divide
  | "%" => some remainder
  | "==" => some equal
  | "!=" => some notEqual
  | "===" => some strictEqual
  | "!==" => some strictNotEqual
  | "<" => some less
  | ">" => some greater
  | "<=" => some lessEqual
  | ">=" => some greaterEqual
  | "&&" => some and
  | "||" => some or
  | _ => none

theorem ofText?_text (op : BinaryOperator) : ofText? op.text = some op := by
  cases op <;> rfl

theorem text_of_ofText? {text : String} {op : BinaryOperator} (h : ofText? text = some op) : op.text = text := by
  unfold ofText? at h
  split at h <;> cases h <;> rfl

end BinaryOperator

/-- operators in front of one value; `new` is accepted and means nothing -/
inductive UnaryOperator where
  | not
  | negate
  | new
deriving DecidableEq, Repr

namespace UnaryOperator

def text : UnaryOperator → String
  | not => "!"
  | negate => "-"
  | new => "new"

/-- the operator that a text writes -/
def ofText? : String → Option UnaryOperator
  | "!" => some not
  | "-" => some negate
  | "new" => some new
  | _ => none

theorem ofText?_text (op : UnaryOperator) : ofText? op.text = some op := by
  cases op <;> rfl

theorem text_of_ofText? {text : String} {op : UnaryOperator} (h : ofText? text = some op) : op.text = text := by
  unfold ofText? at h
  split at h <;> cases h <;> rfl

end UnaryOperator

/-- counting a variable up or down -/
inductive Step where
  | increment
  | decrement
deriving DecidableEq, Repr

namespace Step

def text : Step → String
  | increment => "++"
  | decrement => "--"

/-- the step that a text writes -/
def ofText? : String → Option Step
  | "++" => some increment
  | "--" => some decrement
  | _ => none

theorem ofText?_text (step : Step) : ofText? step.text = some step := by
  cases step <;> rfl

theorem text_of_ofText? {text : String} {step : Step} (h : ofText? text = some step) : step.text = text := by
  unfold ofText? at h
  split at h <;> cases h <;> rfl

end Step

/-- no text writes both an operation on a value and a step -/
theorem UnaryOperator.ofText?_of_step {text : String} {step : Step} (h : Step.ofText? text = some step) :
    UnaryOperator.ofText? text = none := by
  rw [← Step.text_of_ofText? h]
  cases step <;> rfl

/-- the side of the operand on which an operator stands -/
inductive Fixity where
  | before
  | after
deriving DecidableEq, Repr

/-- what is assigned together with the operator that writes it: the text before the `=` at its end -/
def compound? (operator : String) : Option String :=
  if operator.toList.getLast? = some '=' then some (String.ofList operator.toList.dropLast) else none

theorem compound?_eq_some {operator compound : String} :
    compound? operator = some compound ↔ operator = compound ++ "=" := by
  unfold compound?
  rw [← String.toList_inj, String.toList_append]
  constructor
  · intro h
    obtain ⟨hl, ⟨⟩⟩ := Option.ite_none_right_eq_some.1 h
    obtain ⟨init, hinit⟩ := List.getLast?_eq_some_iff.1 hl
    simp [hinit]
  · intro h
    simp [h]

end TemplateView
