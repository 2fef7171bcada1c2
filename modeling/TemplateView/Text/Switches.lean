/-
Character classes as switch points. A class of characters is a union of ranges of code points, and is kept as the
increasing list of the points where membership changes: in, out, in, out. `member` counts the points passed.
-/
namespace TemplateView.Text

/-- membership in the class with these switch points: an odd number of them lies at or below the code point -/
def member (switches : List Nat) (c : Char) : Bool :=
  switches.countP (· ≤ c.toNat) % 2 == 1

end TemplateView.Text
