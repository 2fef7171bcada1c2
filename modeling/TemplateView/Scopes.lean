/-
Variables of a run, in scopes. A name means the variable of the innermost scope that holds it; an assignment changes
that one and makes none.
-/
import TemplateView.Value

namespace TemplateView

/-- scopes of variables, innermost first -/
abbrev Scopes := List (Table Value)

namespace Scopes

/-- one scope without variables -/
def start : Scopes := [[]]

/-- a variable in the innermost scope, in place of an earlier one there -/
def declare (name : String) (v : Value) : Scopes → Scopes
  | [] => []
  | t :: ts => t.insert name v :: ts

/-- the value of a name -/
def lookup? (name : String) (s : Scopes) : Option Value :=
  s.findSome? (·.get? name)

/-- a new value for the variable that a name means -/
def assign? (name : String) (v : Value) : Scopes → Option Scopes
  | [] => none
  | t :: ts => if t.contains name then some (t.insert name v :: ts) else (assign? name v ts).map (t :: ·)

/-- the scopes with a new innermost one -/
def enter (s : Scopes) : Scopes := [] :: s

/-- the scopes without the innermost one -/
def leave (s : Scopes) : Scopes := s.tail

@[simp] theorem leave_enter (s : Scopes) : s.enter.leave = s := rfl

/-- assignment finds a variable exactly if the name has a value -/
theorem assign?_isSome (name : String) (v : Value) (s : Scopes) :
    (s.assign? name v).isSome = (s.lookup? name).isSome := by
  induction s with
  | nil => rfl
  | cons t ts ih =>
    by_cases h : (t.get? name).isSome
    · obtain ⟨w, hw⟩ := Option.isSome_iff_exists.1 h
      simp [assign?, lookup?, Table.contains, hw]
    · simp only [lookup?] at ih
      simp [assign?, lookup?, Table.contains, Option.not_isSome_iff_eq_none.1 h, ih]

end Scopes

end TemplateView
