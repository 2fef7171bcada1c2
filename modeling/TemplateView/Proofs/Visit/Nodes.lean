/-
The nodes of a template. A template is a tree of segments and expressions; `Node.children` has the direct parts of each, in
the order of the source. A further `if` behind an `else` is no node: its parts are parts of the first `if`. A visit opens a
node, visits its children unless it passes over them, and closes it (`Node.events_eq`), so what holds of one such step holds
of visits by induction on the tree (`Node.induction`).
-/
import Mathlib.Data.List.Basic
import TemplateView.Proofs.Visit

namespace TemplateView

open Event

/-- a place in the tree of a template -/
inductive Node where
  | template (t : Template)
  | segment (s : Segment)
  | expression (e : Expression)

namespace Node

/-! ## Children -/

def ofInit (d : Declaration) : List Node :=
  d.init.toList.map expression

/-- the expressions in the attributes of a tag -/
def ofTag (tag : Tag) : List Node :=
  tag.attributes.flatMap fun a =>
    a.values.flatMap fun
      | .text _ => []
      | .inline i => [expression i.expression]

/-- the nodes in all further conditions and bodies of an `if` -/
def ofAlternative : Alternative → List Node
  | .nothing => []
  | .elseBranch test body otherwise => expression test :: (body.map segment ++ ofAlternative otherwise)
  | .elseBody body => body.map segment
  | .both test body otherwise elseBody =>
    expression test :: (body.map segment ++ ofAlternative otherwise ++ elseBody.map segment)

/-- the direct parts of an expression -/
def partsOfExpression : Expression → List Expression
  | .name .. => []
  | .member object _ _ => [object]
  | .literal _ => []
  | .call callee arguments => callee :: arguments
  | .index target key => [target, key]
  | .array items => items
  | .unary _ _ operand => [operand]
  | .binary left _ right => [left, right]
  | .conditional test whenTrue whenFalse => [test, whenTrue, whenFalse]

/-- the direct parts of a segment -/
def partsOfSegment : Segment → List Node
  | .text _ => []
  | .element tag children _ => ofTag tag ++ children.map segment
  | .emptyElement tag _ => ofTag tag
  | .htmlComment .. => []
  | .docType .. => []
  | .inline i => [expression i.expression]
  | .block body => body.map segment
  | .declaration d => ofInit d
  | .branch test body otherwise => expression test :: (body.map segment ++ ofAlternative otherwise)
  | .loop counter condition iteration body =>
    ofInit counter ++ expression condition :: expression iteration :: body.map segment
  | .each _ collection body => expression collection :: body.map segment
  | .action e => [expression e]
  | .helper _ _ body => body.map segment
  | .namedSection _ body => body.map segment
  | .comment _ => []

/-- the direct parts of a node, in the order of the source -/
def children : Node → List Node
  | template t => t.segments.map segment
  | segment s => partsOfSegment s
  | expression e => (partsOfExpression e).map expression

/-! ## Events -/

/-- the events of a visit of a node -/
def events (descend : Segment → Bool) : Node → List Event
  | template t => t.visit descend
  | segment s => ofSegment descend s
  | expression e => ofExpression e

/-- what a visitor is told first of a node; a template itself has no event -/
def opening : Node → List Event
  | template _ => []
  | segment s => [.enter s]
  | expression e => [.expression e]

/-- what a visitor is told last of a node -/
def closing : Node → List Event
  | segment s => [.exit s]
  | _ => []

/-- nodes with children that are visited: all but segments that the visitor passes over -/
def descends (descend : Segment → Bool) : Node → Bool
  | segment s => descend s
  | _ => true

variable {descend : Segment → Bool}

theorem events_expression (e : Expression) : (expression e).events descend = ofExpression e := rfl

variable (descend) in
theorem ofExpressions_eq (es : List Expression) :
    ofExpressions es = (es.map expression).flatMap (events descend) := by
  induction es with
  | nil => rfl
  | cons e es ih => rw [ofExpressions, ih]; rfl

theorem ofSegments_eq (ss : List Segment) : ofSegments descend ss = (ss.map segment).flatMap (events descend) := by
  induction ss with
  | nil => rfl
  | cons s ss ih => rw [ofSegments, ih]; rfl

variable (descend) in
theorem ofOption_eq (d : Declaration) : ofOption d.init = (ofInit d).flatMap (events descend) := by
  unfold ofInit
  cases d.init with
  | none => rfl
  | some e => exact (List.append_nil _).symm

variable (descend) in
theorem ofTag_eq (tag : Tag) : Event.ofTag tag = (ofTag tag).flatMap (events descend) := by
  rw [Event.ofTag, ofTag, List.flatMap_assoc]
  refine List.flatMap_congr fun a _ => ?_
  rw [List.flatMap_assoc]
  refine List.flatMap_congr fun part _ => ?_
  cases part with
  | text s => rfl
  | inline i => exact (List.append_nil _).symm

theorem ofAlternative_eq : ∀ otherwise : Alternative,
    Event.ofAlternative descend otherwise = (ofAlternative otherwise).flatMap (events descend)
  | .nothing => rfl
  | .elseBody body => ofSegments_eq body
  | .elseBranch test body otherwise => by
    rw [Event.ofAlternative, ofAlternative, ofSegments_eq, ofAlternative_eq otherwise, List.flatMap_cons, List.flatMap_append,
      List.append_assoc]
    rfl
  | .both test body otherwise elseBody => by
    rw [Event.ofAlternative, ofAlternative, ofSegments_eq, ofSegments_eq, ofAlternative_eq otherwise, List.flatMap_cons,
      List.flatMap_append, List.flatMap_append]
    simp only [List.append_assoc]
    rfl

/-- the events of an expression: its own, and those of its parts -/
theorem ofExpression_eq (e : Expression) :
    ofExpression e = .expression e :: ((partsOfExpression e).map expression).flatMap (events descend) := by
  rw [← ofExpressions_eq descend]
  cases e <;> simp only [ofExpression, partsOfExpression, ofExpressions, List.append_nil, List.append_assoc]

/-- the events of a segment: it is entered, its parts are visited, and it is left -/
theorem ofSegment_eq (s : Segment) :
    ofSegment descend s =
      .enter s :: ((if descend s then (partsOfSegment s).flatMap (events descend) else []) ++ [.exit s]) := by
  rw [ofSegment.eq_def]
  congr 3
  cases s <;> simp only [partsOfSegment, List.flatMap_nil, List.flatMap_cons, List.flatMap_append, ofSegments_eq,
    ofAlternative_eq, ofTag_eq descend, ofOption_eq descend, events_expression, List.append_nil,
    List.append_assoc]

/-- **A visit opens a node, visits its children unless it passes over them, and closes it.** -/
theorem events_eq (n : Node) :
    n.events descend =
      n.opening ++ ((if n.descends descend then n.children.flatMap (events descend) else []) ++ n.closing) := by
  cases n with
  | template t => exact (ofSegments_eq t.segments).trans (List.append_nil _).symm
  | segment s => exact ofSegment_eq s
  | expression e => exact (ofExpression_eq e).trans (congrArg _ (List.append_nil _).symm)

/-! ## Induction -/

theorem sizeOf_segments {c : Node} {ss : List Segment} (h : c ∈ ss.map segment) : sizeOf c ≤ sizeOf ss := by
  obtain ⟨s, hs, rfl⟩ := List.mem_map.1 h
  exact Nat.one_add_le_iff.2 (List.sizeOf_lt_of_mem hs)

theorem sizeOf_init {c : Node} {d : Declaration} (h : c ∈ ofInit d) : sizeOf c ≤ sizeOf d := by
  obtain ⟨e, he, rfl⟩ := List.mem_map.1 h
  obtain ⟨name, init⟩ := d
  obtain rfl : init = some e := Option.mem_toList.1 he
  simp only [Declaration.mk.sizeOf_spec, Option.some.sizeOf_spec, expression.sizeOf_spec]
  omega

theorem sizeOf_tag {c : Node} {tag : Tag} (h : c ∈ ofTag tag) : sizeOf c ≤ sizeOf tag := by
  obtain ⟨leading, name, attributes, beforeEnd⟩ := tag
  obtain ⟨⟨attributeLeading, attributeName, separator, quote, values⟩, ha, hc⟩ := List.mem_flatMap.1 h
  obtain ⟨part, hpart, hc⟩ := List.mem_flatMap.1 hc
  have hattribute := List.sizeOf_lt_of_mem ha
  have hpiece := List.sizeOf_lt_of_mem hpart
  cases part with
  | text s => cases hc
  | inline i =>
    obtain rfl := List.mem_singleton.1 hc
    obtain ⟨e, before⟩ := i
    simp only [Attribute.mk.sizeOf_spec, ValuePart.inline.sizeOf_spec, InlineExpression.mk.sizeOf_spec] at hattribute hpiece
    simp only [Tag.mk.sizeOf_spec, expression.sizeOf_spec]
    omega

theorem sizeOf_alternative {c : Node} : ∀ {otherwise : Alternative}, c ∈ ofAlternative otherwise →
    sizeOf c ≤ sizeOf otherwise
  | .nothing, h => by cases h
  | .elseBody body, h => by
    have := sizeOf_segments h
    rw [Alternative.elseBody.sizeOf_spec]
    omega
  | .elseBranch test body otherwise, h => by
    rw [Alternative.elseBranch.sizeOf_spec]
    rcases List.mem_cons.1 h with rfl | h
    · rw [expression.sizeOf_spec]
      omega
    · rcases List.mem_append.1 h with h | h
      · have := sizeOf_segments h
        omega
      · have := sizeOf_alternative h
        omega
  | .both test body otherwise elseBody, h => by
    rw [Alternative.both.sizeOf_spec]
    rcases List.mem_cons.1 h with rfl | h
    · rw [expression.sizeOf_spec]
      omega
    rcases List.mem_append.1 h with h | h
    · rcases List.mem_append.1 h with h | h
      · have := sizeOf_segments h
        omega
      · have := sizeOf_alternative h
        omega
    · have := sizeOf_segments h
      omega

theorem sizeOf_partsOfExpression {c e : Expression} (h : c ∈ partsOfExpression e) : sizeOf c < sizeOf e := by
  cases e with
  | call callee arguments =>
    rw [Expression.call.sizeOf_spec]
    rcases List.mem_cons.1 h with rfl | h
    · omega
    · have := List.sizeOf_lt_of_mem h
      omega
  | array items =>
    have : sizeOf c < sizeOf items := List.sizeOf_lt_of_mem h
    rw [Expression.array.sizeOf_spec]
    omega
  | _ => simp only [partsOfExpression, List.mem_cons, List.not_mem_nil, or_false] at h <;> grind

theorem sizeOf_partsOfSegment {c : Node} {s : Segment} (h : c ∈ partsOfSegment s) : sizeOf c ≤ sizeOf s := by
  cases s with
  | element tag children close =>
    rw [Segment.element.sizeOf_spec]
    rcases List.mem_append.1 h with h | h
    · have := sizeOf_tag h
      omega
    · have := sizeOf_segments h
      omega
  | emptyElement tag closing =>
    have := sizeOf_tag h
    rw [Segment.emptyElement.sizeOf_spec]
    omega
  | inline i =>
    obtain ⟨e, leading⟩ := i
    obtain rfl : c = expression e := List.mem_singleton.1 h
    rw [Segment.inline.sizeOf_spec, InlineExpression.mk.sizeOf_spec, expression.sizeOf_spec]
    omega
  | declaration d =>
    have := sizeOf_init h
    rw [Segment.declaration.sizeOf_spec]
    omega
  | branch test body otherwise =>
    rw [Segment.branch.sizeOf_spec]
    rcases List.mem_cons.1 h with rfl | h
    · rw [expression.sizeOf_spec]
      omega
    · rcases List.mem_append.1 h with h | h
      · have := sizeOf_segments h
        omega
      · have := sizeOf_alternative h
        omega
  | loop counter condition iteration body =>
    rw [Segment.loop.sizeOf_spec]
    rcases List.mem_append.1 h with h | h
    · have := sizeOf_init h
      omega
    rcases List.mem_cons.1 h with rfl | h
    · rw [expression.sizeOf_spec]
      omega
    rcases List.mem_cons.1 h with rfl | h
    · rw [expression.sizeOf_spec]
      omega
    · have := sizeOf_segments h
      omega
  | each item collection body =>
    rw [Segment.each.sizeOf_spec]
    rcases List.mem_cons.1 h with rfl | h
    · rw [expression.sizeOf_spec]
      omega
    · have := sizeOf_segments h
      omega
  | action e =>
    obtain rfl := List.mem_singleton.1 h
    exact Nat.le_of_eq ((expression.sizeOf_spec e).trans (Segment.action.sizeOf_spec e).symm)
  | block body =>
    have := sizeOf_segments h
    rw [Segment.block.sizeOf_spec]
    omega
  | helper name parameters body =>
    have := sizeOf_segments h
    rw [Segment.helper.sizeOf_spec]
    omega
  | namedSection name body =>
    have := sizeOf_segments h
    rw [Segment.namedSection.sizeOf_spec]
    omega
  | _ => cases h

theorem sizeOf_children {c n : Node} (h : c ∈ n.children) : sizeOf c < sizeOf n := by
  cases n with
  | template t =>
    obtain ⟨segments⟩ := t
    have : sizeOf c ≤ sizeOf segments := sizeOf_segments h
    rw [template.sizeOf_spec, Template.mk.sizeOf_spec]
    omega
  | segment s =>
    have := sizeOf_partsOfSegment h
    rw [segment.sizeOf_spec]
    omega
  | expression e =>
    obtain ⟨c, hc, rfl⟩ := List.mem_map.1 h
    have := sizeOf_partsOfExpression hc
    rw [expression.sizeOf_spec, expression.sizeOf_spec]
    omega

/-- what holds of a node if it holds of its children holds of all nodes -/
theorem induction {P : Node → Prop} (step : ∀ n : Node, (∀ c ∈ n.children, P c) → P n) (n : Node) : P n :=
  step n fun c _ => induction step c
termination_by sizeOf n
decreasing_by exact sizeOf_children ‹_›

end Node

end TemplateView
