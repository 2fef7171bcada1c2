/-
Templates up to positions. The only positions in a template are those of the names in its expressions, which are there
for diagnostics. `Template.unplaced` drops them. What a template is generated to does not depend on them
(`Template.generate_unplaced`), and no more does its inventory: a visit reports the same events, up to positions.
-/
import TemplateView.Generation.Segment
import TemplateView.Proofs.Grammar.Unplaced
import TemplateView.Proofs.Visit

namespace TemplateView

/-! ## Parts of a template -/

def Declaration.unplaced (d : Declaration) : Declaration := ⟨d.name, d.init.map Expression.unplaced⟩

def InlineExpression.unplaced (i : InlineExpression) : InlineExpression := ⟨i.expression.unplaced, i.leading⟩

def ValuePart.unplaced : ValuePart → ValuePart
  | .text s => .text s
  | .inline i => .inline i.unplaced

def Attribute.unplaced (a : Attribute) : Attribute := { a with values := a.values.map ValuePart.unplaced }

def Tag.unplaced (t : Tag) : Tag := { t with attributes := t.attributes.map Attribute.unplaced }

mutual

/-- the segment without the positions of the names in its expressions -/
def Segment.unplaced : Segment → Segment
  | .text s => .text s
  | .element tag children close => .element tag.unplaced (Segment.unplacedAll children) close
  | .emptyElement tag closing => .emptyElement tag.unplaced closing
  | .htmlComment leading text => .htmlComment leading text
  | .docType leading declaration => .docType leading declaration
  | .inline i => .inline i.unplaced
  | .block body => .block (Segment.unplacedAll body)
  | .declaration d => .declaration d.unplaced
  | .branch test body otherwise => .branch test.unplaced (Segment.unplacedAll body) otherwise.unplaced
  | .loop counter condition iteration body =>
    .loop counter.unplaced condition.unplaced iteration.unplaced (Segment.unplacedAll body)
  | .each item collection body => .each item collection.unplaced (Segment.unplacedAll body)
  | .action e => .action e.unplaced
  | .helper name parameters body => .helper name parameters (Segment.unplacedAll body)
  | .namedSection name body => .namedSection name (Segment.unplacedAll body)
  | .comment text => .comment text

def Segment.unplacedAll : List Segment → List Segment
  | [] => []
  | s :: ss => s.unplaced :: Segment.unplacedAll ss

def Alternative.unplaced : Alternative → Alternative
  | .nothing => .nothing
  | .elseBranch test body otherwise => .elseBranch test.unplaced (Segment.unplacedAll body) otherwise.unplaced
  | .elseBody body => .elseBody (Segment.unplacedAll body)
  | .both test body otherwise elseBody =>
    .both test.unplaced (Segment.unplacedAll body) otherwise.unplaced (Segment.unplacedAll elseBody)

end

def Template.unplaced (t : Template) : Template := ⟨Segment.unplacedAll t.segments⟩

theorem Segment.unplacedAll_append (xs ys : List Segment) :
    Segment.unplacedAll (xs ++ ys) = Segment.unplacedAll xs ++ Segment.unplacedAll ys := by
  induction xs with
  | nil => rfl
  | cons x xs ih => rw [List.cons_append, Segment.unplacedAll, ih]; rfl

/-! ## Generation -/

namespace Generation

variable (casing : Casing)

theorem lower_expression_unplaced (e : Expression) :
    lower casing (·.expression e.unplaced) = lower casing (·.expression e) := by
  simp only [Naming.expression_unplaced]

theorem lowerOption_unplaced (e : Option Expression) :
    lowerOption casing (e.map Expression.unplaced) = lowerOption casing e := by
  cases e with
  | none => rfl
  | some e => rw [Option.map_some, lowerOption, lowerOption, lower_expression_unplaced]

theorem forM_map_same {α : Type} {f : α → α} {g : α → Generate Unit} (h : ∀ a, g (f a) = g a) (l : List α) :
    (l.map f).forM g = l.forM g := by
  induction l with
  | nil => rfl
  | cons a l ih =>
    show (g (f a) >>= fun _ => (l.map f).forM g) = g a >>= fun _ => l.forM g
    rw [h, ih]

theorem writePart_unplaced (part : ValuePart) : writePart casing part.unplaced = writePart casing part := by
  cases part with
  | text s => rw [ValuePart.unplaced]
  | inline i => rw [ValuePart.unplaced, writePart, writePart, InlineExpression.unplaced, lower_expression_unplaced]

theorem writeAttribute_unplaced (a : Attribute) : writeAttribute casing a.unplaced = writeAttribute casing a := by
  have hinline : (a.values.map ValuePart.unplaced).any ValuePart.isInline = a.values.any ValuePart.isInline := by
    rw [List.any_map]
    congr 1
    funext part
    cases part <;> rfl
  have hplain : (a.values.map ValuePart.unplaced).map plainText = a.values.map plainText := by
    rw [List.map_map]
    congr 1
    funext part
    cases part <;> rfl
  simp only [Attribute.unplaced, writeAttribute, hinline, hplain, opening, forM_map_same (writePart_unplaced casing)]

theorem startTag_unplaced (tag : Tag) : startTag casing tag.unplaced = startTag casing tag := by
  simp only [startTag, Tag.unplaced, forM_map_same (writeAttribute_unplaced casing)]

mutual

/-- what a segment is generated to depends on no position -/
theorem segment_unplaced : ∀ s : Segment, segment casing s.unplaced = segment casing s
  | .text _ | .htmlComment .. | .docType .. | .comment _ => by rw [Segment.unplaced]
  | .element tag children _ => by
    rw [Segment.unplaced, segment, segment, startTag_unplaced, segments_unplaced children]
  | .emptyElement tag _ => by rw [Segment.unplaced, segment, segment, startTag_unplaced]
  | .inline i => by
    rw [Segment.unplaced, segment, segment, InlineExpression.unplaced, lower_expression_unplaced]
  | .block body => by rw [Segment.unplaced, segment, segment, segments_unplaced body]
  | .declaration d => by rw [Segment.unplaced, segment, segment, Declaration.unplaced, lowerOption_unplaced]
  | .branch test body otherwise => by
    rw [Segment.unplaced, segment, segment, lower_expression_unplaced, segments_unplaced body,
      alternative_unplaced otherwise]
  | .loop counter condition iteration body => by
    rw [Segment.unplaced, segment, segment, Declaration.unplaced, lowerOption_unplaced, lower_expression_unplaced,
      lower_expression_unplaced, segments_unplaced body]
  | .each _ collection body => by
    rw [Segment.unplaced, segment, segment, lower_expression_unplaced, segments_unplaced body]
  | .action e => by rw [Segment.unplaced, segment, segment, lower_expression_unplaced]
  | .helper _ _ body => by rw [Segment.unplaced, segment, segment, segments_unplaced body]
  | .namedSection _ body => by rw [Segment.unplaced, segment, segment, segments_unplaced body]

theorem segments_unplaced : ∀ ss : List Segment, segments casing (Segment.unplacedAll ss) = segments casing ss
  | [] => by rw [Segment.unplacedAll]
  | s :: ss => by rw [Segment.unplacedAll, segments, segments, segment_unplaced s, segments_unplaced ss]

theorem alternative_unplaced : ∀ a : Alternative, alternative casing a.unplaced = alternative casing a
  | .nothing => by rw [Alternative.unplaced]
  | .elseBranch test body otherwise | .both test body otherwise _ => by
    rw [Alternative.unplaced, alternative, alternative, lower_expression_unplaced, segments_unplaced body,
      alternative_unplaced otherwise]
  | .elseBody body => by rw [Alternative.unplaced, alternative, alternative, segments_unplaced body]

end

end Generation

/-! ## Visits -/

namespace Event

/-- the event of a template without positions -/
def unplaced : Event → Event
  | .enter s => .enter s.unplaced
  | .exit s => .exit s.unplaced
  | .expression e => .expression e.unplaced

mutual

theorem ofExpression_unplaced : ∀ e : Expression, ofExpression e.unplaced = (ofExpression e).map unplaced
  | .name .. => rfl
  | .literal _ => rfl
  | .member object _ _ | .unary _ _ object => by
    simp only [Expression.unplaced, ofExpression, List.map_cons, unplaced, ofExpression_unplaced object]
  | .call callee arguments => by
    simp only [Expression.unplaced, ofExpression, List.map_cons, List.map_append, unplaced,
      ofExpression_unplaced callee, ofExpressions_unplaced arguments]
  | .index left right | .binary left _ right => by
    simp only [Expression.unplaced, ofExpression, List.map_cons, List.map_append, unplaced, ofExpression_unplaced left,
      ofExpression_unplaced right]
  | .array items => by
    simp only [Expression.unplaced, ofExpression, List.map_cons, unplaced, ofExpressions_unplaced items]
  | .conditional test whenTrue whenFalse => by
    simp only [Expression.unplaced, ofExpression, List.map_cons, List.map_append, unplaced, ofExpression_unplaced test,
      ofExpression_unplaced whenTrue, ofExpression_unplaced whenFalse]

theorem ofExpressions_unplaced : ∀ es : List Expression,
    ofExpressions (Expression.unplacedAll es) = (ofExpressions es).map unplaced
  | [] => rfl
  | e :: es => by
    rw [Expression.unplacedAll, ofExpressions, ofExpressions, List.map_append, ofExpression_unplaced e,
      ofExpressions_unplaced es]

end

theorem ofOption_unplaced (e : Option Expression) :
    ofOption (e.map Expression.unplaced) = (ofOption e).map unplaced := by
  cases e with
  | none => rfl
  | some e => exact ofExpression_unplaced e

theorem ofPart_unplaced (part : ValuePart) : ofPart part.unplaced = (ofPart part).map unplaced := by
  cases part with
  | text s => rfl
  | inline i => exact ofExpression_unplaced i.expression

theorem ofAttribute_unplaced (a : Attribute) : ofAttribute a.unplaced = (ofAttribute a).map unplaced := by
  show (a.values.map ValuePart.unplaced).flatMap ofPart = (a.values.flatMap ofPart).map unplaced
  rw [List.flatMap_map, List.map_flatMap]
  simp only [ofPart_unplaced]

theorem ofTag_unplaced (tag : Tag) : ofTag tag.unplaced = (ofTag tag).map unplaced := by
  rw [ofTag_eq, ofTag_eq, Tag.unplaced, List.flatMap_map, List.map_flatMap]
  simp only [ofAttribute_unplaced]

end Event

namespace Generation

open Event

/-- events around the ones inside a segment -/
theorem ofSegment_unplaced_of_inside {s : Segment} (h : inside s.unplaced = (inside s).map unplaced) :
    ofSegment (fun _ => true) s.unplaced = (ofSegment (fun _ => true) s).map unplaced := by
  rw [ofSegment_eq, ofSegment_eq, h, List.map_cons, List.map_append]
  rfl

mutual

/-- the visit of a segment without positions -/
theorem ofSegment_unplaced : ∀ s : Segment,
    ofSegment (fun _ => true) s.unplaced = (ofSegment (fun _ => true) s).map unplaced
  | .text _ | .htmlComment .. | .docType .. | .comment _ => ofSegment_unplaced_of_inside rfl
  | .element tag children _ => ofSegment_unplaced_of_inside (by
    simp only [Segment.unplaced, inside, List.map_append, ofTag_unplaced, ofSegments_unplaced children])
  | .emptyElement tag _ => ofSegment_unplaced_of_inside (ofTag_unplaced tag)
  | .inline i => ofSegment_unplaced_of_inside (ofExpression_unplaced i.expression)
  | .block body | .helper _ _ body | .namedSection _ body => ofSegment_unplaced_of_inside (ofSegments_unplaced body)
  | .declaration d => ofSegment_unplaced_of_inside (ofOption_unplaced d.init)
  | .branch test body otherwise => ofSegment_unplaced_of_inside (by
    simp only [Segment.unplaced, inside, List.map_append, ofExpression_unplaced, ofSegments_unplaced body,
      ofAlternative_unplaced otherwise])
  | .loop counter condition iteration body => ofSegment_unplaced_of_inside (by
    simp only [Segment.unplaced, Declaration.unplaced, inside, List.map_append, ofOption_unplaced,
      ofExpression_unplaced, ofSegments_unplaced body])
  | .each _ collection body => ofSegment_unplaced_of_inside (by
    simp only [Segment.unplaced, inside, List.map_append, ofExpression_unplaced, ofSegments_unplaced body])
  | .action e => ofSegment_unplaced_of_inside (ofExpression_unplaced e)

theorem ofSegments_unplaced : ∀ ss : List Segment,
    ofSegments (fun _ => true) (Segment.unplacedAll ss) = (ofSegments (fun _ => true) ss).map unplaced
  | [] => rfl
  | s :: ss => by
    rw [Segment.unplacedAll, ofSegments, ofSegments, List.map_append, ofSegment_unplaced s, ofSegments_unplaced ss]

theorem ofAlternative_unplaced : ∀ a : Alternative,
    ofAlternative (fun _ => true) a.unplaced = (ofAlternative (fun _ => true) a).map unplaced
  | .nothing => rfl
  | .elseBranch test body otherwise => by
    simp only [Alternative.unplaced, ofAlternative, List.map_append, ofExpression_unplaced, ofSegments_unplaced body,
      ofAlternative_unplaced otherwise]
  | .elseBody body => ofSegments_unplaced body
  | .both test body otherwise elseBody => by
    simp only [Alternative.unplaced, ofAlternative, List.map_append, ofExpression_unplaced, ofSegments_unplaced body,
      ofAlternative_unplaced otherwise, ofSegments_unplaced elseBody]

end

end Generation

/-! ## Templates -/

namespace Template

variable (t : Template)

/-- names of an inventory are those of the events, which have no positions -/
theorem filterMap_visit_unplaced {name? : Event → Option String} (h : ∀ e : Event, name? e.unplaced = name? e) :
    (t.unplaced.visit fun _ => true).filterMap name? = (t.visit fun _ => true).filterMap name? := by
  rw [visit, visit, unplaced, Generation.ofSegments_unplaced, List.filterMap_map]
  congr 1
  exact funext h

/-- **The inventory of a template does not depend on positions.** -/
theorem inventory_unplaced : t.unplaced.inventory = t.inventory := by
  have hhelper : ∀ e : Event, Inventory.declaredHelper? e.unplaced = Inventory.declaredHelper? e := by
    rintro (s | s | e) <;> first | rfl | cases s <;> rfl
  have hsection : ∀ e : Event, Inventory.declaredSection? e.unplaced = Inventory.declaredSection? e := by
    rintro (s | s | e) <;> first | rfl | cases s <;> rfl
  have hcalled : ∀ e : Event, Inventory.calledName? e.unplaced = Inventory.calledName? e := by
    rintro (s | s | e) <;> try rfl
    cases e with
    | call callee arguments => cases callee <;> rfl
    | _ => rfl
  simp only [inventory, filterMap_visit_unplaced t hhelper, filterMap_visit_unplaced t hsection,
    filterMap_visit_unplaced t hcalled]

/-- **The programs of a template do not depend on positions.** -/
theorem generate_unplaced (casing : Casing) : t.unplaced.generate casing = t.generate casing := by
  have hsegments : Generation.segments casing t.unplaced.segments = Generation.segments casing t.segments :=
    Generation.segments_unplaced casing t.segments
  simp only [generate, inventory_unplaced, hsegments]

end Template

end TemplateView
