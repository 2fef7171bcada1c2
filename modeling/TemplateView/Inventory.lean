/-
The inventory of a template: which helpers and sections it declares, which names it calls. Nested declarations and
calls count like all others.
-/
import TemplateView.Visit
import TemplateView.Table

namespace TemplateView

/-- names a template declares and calls -/
structure Inventory where
  /-- declared helpers, in increasing order -/
  helpersDeclared : List String
  /-- called names, builtins included, in increasing order -/
  helpersCalled : List String
  /-- declared sections, in increasing order -/
  sectionsDeclared : List String
  /-- names of helpers declared again, in the order of those declarations -/
  duplicateHelpers : List String
  /-- names of sections declared again, in the order of those declarations -/
  duplicateSections : List String
deriving DecidableEq, Repr

/-- a name in its place among names in increasing order, once -/
def insertName (name : String) : List String → List String
  | [] => [name]
  | n :: ns => if name < n then name :: n :: ns else if name = n then n :: ns else n :: insertName name ns

/-- names in increasing order, each once -/
def sortNames (names : List String) : List String :=
  names.foldr insertName []

theorem mem_insertName {name other : String} {names : List String} :
    name ∈ insertName other names ↔ name = other ∨ name ∈ names := by
  induction names with
  | nil => simp [insertName]
  | cons n ns ih =>
    rw [insertName]
    split
    · simp
    split
    · next h => subst h; simp
    · simp only [List.mem_cons, ih]
      constructor
      · rintro (h | h | h) <;> simp [h]
      · rintro (h | h | h) <;> simp [h]

theorem mem_sortNames {name : String} {names : List String} : name ∈ sortNames names ↔ name ∈ names := by
  induction names with
  | nil => rfl
  | cons n ns ih => rw [sortNames, List.foldr_cons, mem_insertName, List.mem_cons, ← ih, sortNames]

/-- the names that stand behind an equal one, `seen` being the names before -/
def repeats (seen : List String) : List String → List String
  | [] => []
  | n :: ns => if seen.contains n then n :: repeats seen ns else repeats (n :: seen) ns

namespace Inventory

def empty : Inventory := ⟨[], [], [], [], []⟩

/-- the helper that an event declares -/
def declaredHelper? : Event → Option String
  | .enter (.helper name _ _) => some name
  | _ => none

/-- the section that an event declares -/
def declaredSection? : Event → Option String
  | .enter (.namedSection name _) => some name
  | _ => none

/-- the bare name that an event calls -/
def calledName? : Event → Option String
  | .expression (.call (.name name _) _) => some name
  | _ => none

/-- names that every view can call -/
def builtins : List String := ["raw", "renderSection", "renderBody"]

/-- the called names that neither the template nor the builtins define -/
def externalHelpers (i : Inventory) : List String :=
  i.helpersCalled.filter fun name => !builtins.contains name && !i.helpersDeclared.contains name

def usesRaw (i : Inventory) : Bool :=
  i.helpersCalled.contains "raw"

end Inventory

/-- the inventory of a template -/
def Template.inventory (t : Template) : Inventory :=
  let events := t.visit fun _ => true
  let helpers := events.filterMap Inventory.declaredHelper?
  let sections := events.filterMap Inventory.declaredSection?
  { helpersDeclared := sortNames helpers
    helpersCalled := sortNames (events.filterMap Inventory.calledName?)
    sectionsDeclared := sortNames sections
    duplicateHelpers := repeats [] helpers
    duplicateSections := repeats [] sections }

end TemplateView
