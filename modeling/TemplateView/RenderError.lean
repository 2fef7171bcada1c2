/-
What can go wrong while a view renders. An error ends the run; no markup of it is kept.
-/
namespace TemplateView

/-- why a run ended without a result -/
inductive RenderError where
  /-- a member, an item or a method of null -/
  | nullReference (member : String)
  | unknownHelper (name : String)
  | unknownMethod (name typeName : String)
  | notIterable (typeName : String)
  /-- a local variable that no scope holds -/
  | undefinedLocal (name : String)
  /-- an operand of a kind that the operator does not take -/
  | type (message : String)
  /-- calls nested deeper than allowed -/
  | recursionLimit (name : String) (limit : Nat)
  /-- a helper's own failure -/
  | helper (name message : String)
deriving DecidableEq, Repr

def RenderError.message : RenderError → String
  | nullReference member => s!"cannot read `{member}` of null"
  | unknownHelper name => s!"unknown helper `{name}`"
  | unknownMethod name typeName => s!"`{name}` is not a method of {typeName}"
  | notIterable typeName => s!"{typeName} is not iterable"
  | undefinedLocal name => s!"`{name}` is not defined in this scope"
  | type message => s!"type error: {message}"
  | recursionLimit name limit => s!"helper `{name}` exceeded the maximum call depth of {limit}"
  | helper name message => s!"helper `{name}` failed: {message}"

end TemplateView
