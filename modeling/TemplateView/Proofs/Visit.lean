/-
Visits, segment by segment. A visit that passes over nothing enters a segment, has the events inside it, and leaves it; a
property of the events of a whole template is a property of its segments, however deep. `Event.Whole` is such a property:
generation reads what a visit goes to.
-/
import TemplateView.Visit

namespace TemplateView

open Event

/-! ## Tags -/

namespace Event

/-- the expressions in a piece of an attribute value -/
def ofPart : ValuePart → List Event
  | .text _ => []
  | .inline i => ofExpression i.expression

/-- the expressions in the value of an attribute -/
def ofAttribute (a : Attribute) : List Event := a.values.flatMap ofPart

theorem ofTag_eq (tag : Tag) : ofTag tag = tag.attributes.flatMap ofAttribute := rfl

end Event

/-- a value without expressions has nothing of what comes from its expressions alone -/
theorem ValuePart.flatMap_plain {α : Type} {f : ValuePart → List α} (hf : ∀ s, f (.text s) = []) {parts : List ValuePart}
    (h : ¬ parts.any ValuePart.isInline) : parts.flatMap f = [] := by
  refine List.flatMap_eq_nil_iff.2 fun part hp => ?_
  cases part with
  | text s => exact hf s
  | inline i => exact absurd (List.any_eq_true.2 ⟨_, hp, rfl⟩) h

/-! ## Segments -/

namespace Generation

/-- the events between entering and leaving a segment -/
def inside : Segment → List Event
  | .element tag children _ => ofTag tag ++ ofSegments (fun _ => true) children
  | .emptyElement tag _ => ofTag tag
  | .inline i => ofExpression i.expression
  | .block body => ofSegments (fun _ => true) body
  | .declaration d => ofOption d.init
  | .branch test body otherwise =>
    ofExpression test ++ ofSegments (fun _ => true) body ++ ofAlternative (fun _ => true) otherwise
  | .loop counter condition iteration body =>
    ofOption counter.init ++ ofExpression condition ++ ofExpression iteration ++ ofSegments (fun _ => true) body
  | .each _ collection body => ofExpression collection ++ ofSegments (fun _ => true) body
  | .action e => ofExpression e
  | .helper _ _ body => ofSegments (fun _ => true) body
  | .namedSection _ body => ofSegments (fun _ => true) body
  | _ => []

/-- a segment is entered and left around the events inside it -/
theorem ofSegment_eq (s : Segment) : ofSegment (fun _ => true) s = .enter s :: (inside s ++ [.exit s]) := by
  rw [ofSegment.eq_def]
  cases s <;> rfl

/-- a property of the nodes of a segment is one of its own node and of those inside it -/
theorem forall_ofSegment {P : Event → Prop} {s : Segment} :
    (∀ ev ∈ ofSegment (fun _ => true) s, P ev) ↔ P (.enter s) ∧ (∀ ev ∈ inside s, P ev) ∧ P (.exit s) := by
  rw [ofSegment_eq, List.forall_mem_cons, List.forall_mem_append, List.forall_mem_singleton]

end Generation

/-! ## Whole templates

A visit goes to all parts of a template. Generation passes over two of them: the values of an attribute without a quote,
and a body that stands beside a further `if`. -/

/-- no body stands beside a further `if` -/
def Alternative.Exclusive : Alternative → Prop
  | .nothing => True
  | .elseBranch _ _ otherwise => otherwise.Exclusive
  | .elseBody _ => True
  | .both .. => False

/-- there are no values without a quote -/
def Attribute.Whole (a : Attribute) : Prop := a.quote = none → a.values = []

/-- a node of which generation passes over no part -/
def Event.Whole : Event → Prop
  | .enter (.element tag _ _) => ∀ a ∈ tag.attributes, a.Whole
  | .enter (.emptyElement tag _) => ∀ a ∈ tag.attributes, a.Whole
  | .enter (.branch _ _ otherwise) => otherwise.Exclusive
  | _ => True

/-- nodes of which generation passes over no part -/
def Event.AllWhole (events : List Event) : Prop := ∀ ev ∈ events, ev.Whole

/-- a template of which generation passes over no part -/
def Template.Whole (t : Template) : Prop := Event.AllWhole (t.visit fun _ => true)

namespace Event

@[simp] theorem allWhole_append {a b : List Event} : AllWhole (a ++ b) ↔ AllWhole a ∧ AllWhole b :=
  List.forall_mem_append

theorem allWhole_ofSegment {s : Segment} :
    AllWhole (ofSegment (fun _ => true) s) ↔ (enter s).Whole ∧ AllWhole (Generation.inside s) :=
  Generation.forall_ofSegment.trans (and_congr_right fun _ => and_iff_left trivial)

end Event

end TemplateView
