/-
Operators between values. Equality comes in two kinds: strict equality wants the same kind of value, loose equality
compares numbers, booleans and numeric text by value. Two texts are ordered by code points, all else as numbers.
Addition joins as soon as one side is text.
-/
import TemplateView.Value
import TemplateView.Operator
import TemplateView.RenderError

namespace TemplateView.Value

/-! ## Equality -/

mutual

/-- the same value of the same kind; markup is no text here, and what is no number differs from itself -/
def same : Value → Value → Bool
  | null, null => true
  | bool b, bool c => b == c
  | number x, number y => x == y
  | string s, string t => s == t
  | raw s, raw t => s == t
  | array vs, array ws => sameItems vs ws
  | object ms, object ns => sameMembers ms ns
  | _, _ => false

def sameItems : List Value → List Value → Bool
  | [], [] => true
  | v :: vs, w :: ws => same v w && sameItems vs ws
  | _, _ => false

def sameMembers : List (String × Value) → List (String × Value) → Bool
  | [], [] => true
  | (k, v) :: ms, (l, w) :: ns => k == l && same v w && sameMembers ms ns
  | _, _ => false

end

mutual

/-- `===`: markup equals the same text, also among the items of arrays; members of objects must be the same -/
def strictEquals : Value → Value → Bool
  | null, null => true
  | bool b, bool c => b == c
  | number x, number y => x == y
  | array vs, array ws => strictItems vs ws
  | object ms, object ns => sameMembers ms ns
  | v, w =>
    match v.text?, w.text? with
    | some s, some t => s == t
    | _, _ => false

def strictItems : List Value → List Value → Bool
  | [], [] => true
  | v :: vs, w :: ws => strictEquals v w && strictItems vs ws
  | _, _ => false

end

/-- numbers and booleans, which loose equality compares by value -/
def isNumeric : Value → Bool
  | number _ => true
  | bool _ => true
  | _ => false

def isBool : Value → Bool
  | bool _ => true
  | _ => false

/-- `==`: null equals null alone; a number or a boolean is compared by value, two booleans and all else strictly -/
def looseEquals (v w : Value) : Bool :=
  match v, w with
  | null, null => true
  | null, _ => false
  | _, null => false
  | v, w =>
    if (v.isNumeric || w.isNumeric) && !(v.isBool && w.isBool) then v.toNumber == w.toNumber
    else strictEquals v w

/-! ## Order -/

/-- the order of two texts, or of two numbers; none where one is no number -/
def order? (v w : Value) : Option Ordering :=
  match v.text?, w.text? with
  | some s, some t => some (if s < t then .lt else if s = t then .eq else .gt)
  | _, _ =>
    let x := v.toNumber
    let y := w.toNumber
    if x < y then some .lt else if x == y then some .eq else if y < x then some .gt else none

/-! ## All binary operators -/

/-- the number behind an operand; collections have none -/
def operand (op : BinaryOperator) (v : Value) : Except RenderError Float :=
  match v with
  | array _ => .error (.type s!"cannot apply `{op.text}` to {v.typeName}")
  | object _ => .error (.type s!"cannot apply `{op.text}` to {v.typeName}")
  | v => .ok v.toNumber

/-- an operation on two numbers -/
def arithmetic (op : BinaryOperator) (f : Float → Float → Float) (v w : Value) : Except RenderError Value := do
  let x ← operand op v
  let y ← operand op w
  return number (f x y)

/-- texts joined if one side is text, else numbers added -/
def add (v w : Value) : Except RenderError Value :=
  if v.text?.isSome || w.text?.isSome then .ok (string (v.text ++ w.text)) else arithmetic .add (· + ·) v w

/-- a binary operator applied to both operands; `&&` and `||` give one of them -/
def binary (op : BinaryOperator) (v w : Value) : Except RenderError Value :=
  match op with
  | .and => .ok (if v.isTruthy then w else v)
  | .or => .ok (if v.isTruthy then v else w)
  | .equal => .ok (bool (looseEquals v w))
  | .notEqual => .ok (bool (!looseEquals v w))
  | .strictEqual => .ok (bool (strictEquals v w))
  | .strictNotEqual => .ok (bool (!strictEquals v w))
  | .less => .ok (bool (order? v w == some .lt))
  | .greater => .ok (bool (order? v w == some .gt))
  | .lessEqual => .ok (bool (order? v w == some .lt || order? v w == some .eq))
  | .greaterEqual => .ok (bool (order? v w == some .gt || order? v w == some .eq))
  | .add => add v w
  | .subtract => arithmetic op (· - ·) v w
  | .multiply => arithmetic op (· * ·) v w
  | .divide => arithmetic op (· / ·) v w
  | .remainder => arithmetic op Number.remainder v w

/-- minus; collections cannot be negated -/
def negate (v : Value) : Except RenderError Value :=
  match v with
  | array _ => .error (.type s!"cannot negate {v.typeName}")
  | object _ => .error (.type s!"cannot negate {v.typeName}")
  | v => .ok (number (-v.toNumber))

end TemplateView.Value
