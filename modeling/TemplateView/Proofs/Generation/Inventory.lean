/-
What an inventory lists. `Segment.nodes` are a segment and all those inside it, however deep. A visit enters exactly these
nodes (`entered_segment`), and their declarations are the ones that the generator makes tables of, in another order
(`declares_segments`). The names that a visit sees called are those that the lowered operations and the lowered bodies of the
declarations call (`called_sited`): an expression and its lowering call the same names in the same order
(`called_expression`), for what is not lowered, the target of an update or of an assignment, is a bare name.
-/
import Mathlib.Data.List.Perm.Subperm
import TemplateView.Proofs.Generation.Origins
import TemplateView.Proofs.Generation.Woven

namespace TemplateView

/-! ## Nodes -/

mutual

/-- a segment and all those inside it, outermost first -/
def Segment.nodes (s : Segment) : List Segment :=
  s ::
    match s with
    | .element _ children _ => Segment.nodesAll children
    | .block body => Segment.nodesAll body
    | .branch _ body otherwise => Segment.nodesAll body ++ otherwise.nodes
    | .loop _ _ _ body => Segment.nodesAll body
    | .each _ _ body => Segment.nodesAll body
    | .helper _ _ body => Segment.nodesAll body
    | .namedSection _ body => Segment.nodesAll body
    | _ => []

def Segment.nodesAll : List Segment → List Segment
  | [] => []
  | s :: ss => s.nodes ++ Segment.nodesAll ss

/-- the segments in what follows the body of an `if` -/
def Alternative.nodes : Alternative → List Segment
  | .nothing => []
  | .elseBranch _ body otherwise => Segment.nodesAll body ++ otherwise.nodes
  | .elseBody body => Segment.nodesAll body
  | .both _ body otherwise elseBody => Segment.nodesAll body ++ otherwise.nodes ++ Segment.nodesAll elseBody

end

/-- all segments of a template, at whatever depth -/
def Template.nodes (t : Template) : List Segment := Segment.nodesAll t.segments

namespace Event

/-- the segment that an event enters -/
def entered? : Event → Option Segment
  | .enter s => some s
  | _ => none

/-- the segments that some events enter -/
def entered (events : List Event) : List Segment := events.filterMap entered?

/-- the bare names that some events call -/
def called (events : List Event) : List String := events.filterMap Inventory.calledName?

@[simp] theorem entered_nil : entered [] = [] := rfl

@[simp] theorem entered_append (a b : List Event) : entered (a ++ b) = entered a ++ entered b := List.filterMap_append

@[simp] theorem called_nil : called [] = [] := rfl

@[simp] theorem called_append (a b : List Event) : called (a ++ b) = called a ++ called b := List.filterMap_append

@[simp] theorem called_enter (s : Segment) (events : List Event) : called (.enter s :: events) = called events := rfl

@[simp] theorem called_exit (s : Segment) (events : List Event) : called (.exit s :: events) = called events := rfl

/-! ### Entered segments -/

theorem entered_expression (e : Expression) : entered (ofExpression e) = [] := by
  refine List.filterMap_eq_nil_iff.2 fun ev hev => ?_
  obtain ⟨x, rfl⟩ := Generation.expression_events e ev hev
  rfl

theorem entered_option (e : Option Expression) : entered (ofOption e) = [] := by
  cases e with
  | none => rfl
  | some e => exact entered_expression e

theorem entered_tag (tag : Tag) : entered (ofTag tag) = [] := by
  refine List.filterMap_eq_nil_iff.2 fun ev hev => ?_
  obtain ⟨a, -, hev⟩ := List.mem_flatMap.1 hev
  obtain ⟨part, -, hev⟩ := List.mem_flatMap.1 hev
  cases part with
  | text s => cases hev
  | inline i =>
    obtain ⟨x, rfl⟩ := Generation.expression_events _ ev hev
    rfl

/-- the events that go before and after those inside -/
theorem entered_ofSegment (s : Segment) :
    entered (ofSegment (fun _ => true) s) = s :: entered (Generation.inside s) := by
  rw [Generation.ofSegment_eq]
  show s :: entered (Generation.inside s ++ [.exit s]) = _
  rw [entered_append]
  exact congrArg (s :: ·) (List.append_nil _)

mutual

/-- a visit enters every node once, outermost first -/
theorem entered_segment : ∀ s : Segment, entered (ofSegment (fun _ => true) s) = s.nodes
  | .element tag children close => by
    simp [entered_ofSegment, Generation.inside, Segment.nodes, entered_tag, entered_segments children]
  | .block body => by simp [entered_ofSegment, Generation.inside, Segment.nodes, entered_segments body]
  | .branch test body otherwise => by
    simp [entered_ofSegment, Generation.inside, Segment.nodes, entered_expression, entered_segments body,
      entered_alternative otherwise]
  | .loop counter condition iteration body => by
    simp [entered_ofSegment, Generation.inside, Segment.nodes, entered_expression, entered_option, entered_segments body]
  | .each item collection body => by
    simp [entered_ofSegment, Generation.inside, Segment.nodes, entered_expression, entered_segments body]
  | .helper name parameters body => by
    simp [entered_ofSegment, Generation.inside, Segment.nodes, entered_segments body]
  | .namedSection name body => by
    simp [entered_ofSegment, Generation.inside, Segment.nodes, entered_segments body]
  | .emptyElement tag closing => by simp [entered_ofSegment, Generation.inside, Segment.nodes, entered_tag]
  | .inline i => by simp [entered_ofSegment, Generation.inside, Segment.nodes, entered_expression]
  | .declaration d => by simp [entered_ofSegment, Generation.inside, Segment.nodes, entered_option]
  | .action e => by simp [entered_ofSegment, Generation.inside, Segment.nodes, entered_expression]
  | .text _ => by simp [entered_ofSegment, Generation.inside, Segment.nodes]
  | .htmlComment .. => by simp [entered_ofSegment, Generation.inside, Segment.nodes]
  | .docType .. => by simp [entered_ofSegment, Generation.inside, Segment.nodes]
  | .comment _ => by simp [entered_ofSegment, Generation.inside, Segment.nodes]

theorem entered_segments : ∀ ss : List Segment, entered (ofSegments (fun _ => true) ss) = Segment.nodesAll ss
  | [] => by rw [ofSegments, Segment.nodesAll, entered_nil]
  | s :: ss => by rw [ofSegments, Segment.nodesAll, entered_append, entered_segment s, entered_segments ss]

theorem entered_alternative : ∀ a : Alternative, entered (ofAlternative (fun _ => true) a) = a.nodes
  | .nothing => by rw [ofAlternative, Alternative.nodes, entered_nil]
  | .elseBranch test body otherwise => by
    simp [ofAlternative, Alternative.nodes, entered_expression, entered_segments body, entered_alternative otherwise]
  | .elseBody body => by rw [ofAlternative, Alternative.nodes, entered_segments body]
  | .both test body otherwise elseBody => by
    simp [ofAlternative, Alternative.nodes, entered_expression, entered_segments body, entered_alternative otherwise,
      entered_segments elseBody]

end

end Event

namespace Generation

open Event

/-! ## Declarations -/

/-- what a segment itself declares -/
def declaration? : Segment → Option Declared
  | .helper name parameters body => some ⟨true, name, parameters, body⟩
  | .namedSection name body => some ⟨false, name, [], body⟩
  | _ => none

/-- declarations are among those of some nodes, and are all of them if none is passed over -/
structure Declares (whole : Prop) (nodes : List Segment) (ds : List Declared) : Prop where
  subperm : ds.Subperm (nodes.filterMap declaration?)
  perm : whole → (nodes.filterMap declaration?).Perm ds

namespace Declares

variable {whole whole' : Prop} {nodes more : List Segment} {ds es : List Declared}

theorem nil : Declares whole [] [] := ⟨List.nil_subperm, fun _ => .nil⟩

theorem mono (h : Declares whole nodes ds) (hw : whole' → whole) : Declares whole' nodes ds :=
  ⟨h.subperm, fun h' => h.perm (hw h')⟩

theorem append (h : Declares whole nodes ds) (h' : Declares whole' more es) :
    Declares (whole ∧ whole') (nodes ++ more) (ds ++ es) := by
  refine ⟨?_, fun hw => ?_⟩ <;> rw [List.filterMap_append]
  · exact h.subperm.append h'.subperm
  · exact (h.perm hw.1).append (h'.perm hw.2)

/-- a node that declares nothing itself -/
theorem node (h : Declares whole nodes ds) {s : Segment} (hs : declaration? s = none) : Declares whole (s :: nodes) ds := by
  refine ⟨?_, fun hw => ?_⟩ <;> rw [List.filterMap_cons_none hs]
  · exact h.subperm
  · exact h.perm hw

/-- a declaration comes after those inside it -/
theorem declaration (h : Declares whole nodes ds) {s : Segment} {d : Declared} (hs : declaration? s = some d) :
    Declares whole (s :: nodes) (ds ++ [d]) := by
  refine ⟨?_, fun hw => ?_⟩ <;> rw [List.filterMap_cons_some hs]
  · exact (List.perm_append_singleton d ds).subperm.trans ((List.subperm_cons d).2 h.subperm)
  · exact ((h.perm hw).cons d).trans (List.perm_append_singleton d ds).symm

end Declares

mutual

/-- what is declared in a segment is declared by its nodes -/
theorem declares_segment : ∀ s : Segment, Declares (AllWhole (ofSegment (fun _ => true) s)) s.nodes (declared s)
  | .element tag children close => by
    rw [Segment.nodes, declared]
    exact ((declares_segments children).mono fun h => (allWhole_append.1 (allWhole_ofSegment.1 h).2).2).node rfl
  | .block body => by
    rw [Segment.nodes, declared]
    exact ((declares_segments body).mono fun h => (allWhole_ofSegment (s := .block body).1 h).2).node rfl
  | .branch test body otherwise => by
    rw [Segment.nodes, declared]
    refine (((declares_segments body).append (declares_alternative otherwise)).mono fun h => ?_).node rfl
    obtain ⟨hx, h⟩ := allWhole_ofSegment.1 h
    obtain ⟨hbody, ho⟩ := allWhole_append.1 h
    exact ⟨(allWhole_append.1 hbody).2, hx, ho⟩
  | .loop counter condition iteration body => by
    rw [Segment.nodes, declared]
    exact ((declares_segments body).mono fun h => (allWhole_append.1 (allWhole_ofSegment.1 h).2).2).node rfl
  | .each item collection body => by
    rw [Segment.nodes, declared]
    exact ((declares_segments body).mono fun h => (allWhole_append.1 (allWhole_ofSegment.1 h).2).2).node rfl
  | .helper name parameters body => by
    rw [Segment.nodes, declared]
    have hbody := (declares_segments body).mono fun h => (allWhole_ofSegment (s := .helper name parameters body).1 h).2
    exact hbody.declaration rfl
  | .namedSection name body => by
    rw [Segment.nodes, declared]
    have hbody := (declares_segments body).mono fun h => (allWhole_ofSegment (s := .namedSection name body).1 h).2
    exact hbody.declaration rfl
  | .text _ => Declares.nil.node rfl
  | .emptyElement .. => Declares.nil.node rfl
  | .htmlComment .. => Declares.nil.node rfl
  | .docType .. => Declares.nil.node rfl
  | .inline _ => Declares.nil.node rfl
  | .declaration _ => Declares.nil.node rfl
  | .action _ => Declares.nil.node rfl
  | .comment _ => Declares.nil.node rfl

theorem declares_segments : ∀ ss : List Segment,
    Declares (AllWhole (ofSegments (fun _ => true) ss)) (Segment.nodesAll ss) (declaredAll ss)
  | [] => Declares.nil
  | s :: ss => by
    rw [Segment.nodesAll, declaredAll]
    exact ((declares_segment s).append (declares_segments ss)).mono allWhole_append.1

theorem declares_alternative : ∀ a : Alternative,
    Declares (a.Exclusive ∧ AllWhole (ofAlternative (fun _ => true) a)) a.nodes (declaredAlternative a)
  | .nothing => Declares.nil
  | .elseBranch test body otherwise => by
    rw [Alternative.nodes, declaredAlternative]
    refine ((declares_segments body).append (declares_alternative otherwise)).mono fun ⟨hx, h⟩ => ?_
    obtain ⟨hbody, ho⟩ := allWhole_append.1 h
    exact ⟨(allWhole_append.1 hbody).2, hx, ho⟩
  | .elseBody body => by
    rw [Alternative.nodes, declaredAlternative]
    exact (declares_segments body).mono fun h => h.2
  | .both test body otherwise elseBody => by
    -- the last body is passed over
    refine ⟨?_, fun h => h.1.elim⟩
    have h := ((declares_segments body).append (declares_alternative otherwise)).subperm
    rw [Alternative.nodes, declaredAlternative, List.filterMap_append]
    exact h.trans (List.sublist_append_left _ _).subperm

end

end Generation

/-! ## Calls of expressions -/

mutual

/-- the helpers that an expression of a program calls, from left to right -/
def Expr.called : Expr → List String
  | .callHelper name arguments => name :: Expr.calledAll arguments
  | .member object _ => object.called
  | .index target key => target.called ++ key.called
  | .callMethod receiver _ arguments => receiver.called ++ Expr.calledAll arguments
  | .array items => Expr.calledAll items
  | .unary _ operand => operand.called
  | .binary left _ right => left.called ++ right.called
  | .assign _ value => value.called
  | .conditional test whenTrue whenFalse => test.called ++ whenTrue.called ++ whenFalse.called
  | .constant _ => []
  | .local _ => []
  | .model _ => []
  | .modelRoot => []
  | .update .. => []

def Expr.calledAll : List Expr → List String
  | [] => []
  | e :: es => e.called ++ Expr.calledAll es

end

/-- the helpers that some operations call, those in bodies included -/
def Op.called (ops : List Op) : List String :=
  (Op.allParts ops).flatMap fun o => o.exprs.flatMap Expr.called

namespace Op

@[simp] theorem called_nil : Op.called [] = [] := rfl

@[simp] theorem called_append (ops more : List Op) : Op.called (ops ++ more) = Op.called ops ++ Op.called more := by
  simp [Op.called, Generation.allParts_append]

variable (ops : List Op)

@[simp] theorem called_text (s : String) : Op.called (.text s :: ops) = Op.called ops := rfl

@[simp] theorem called_emit (value : Expr) : Op.called (.emit value :: ops) = value.called ++ Op.called ops := by
  simp [Op.called, Op.allParts, Op.parts, Op.exprs]

@[simp] theorem called_beginAttribute (s : String) : Op.called (.beginAttribute s :: ops) = Op.called ops := rfl

@[simp] theorem called_attributeText (s : String) : Op.called (.attributePart (.text s) :: ops) = Op.called ops := rfl

@[simp] theorem called_attributeValue (value : Expr) :
    Op.called (.attributePart (.value value) :: ops) = value.called ++ Op.called ops := by
  simp [Op.called, Op.allParts, Op.parts, Op.exprs]

@[simp] theorem called_endAttribute (s : String) : Op.called (.endAttribute s :: ops) = Op.called ops := rfl

@[simp] theorem called_declare (name : String) (init : Option Expr) :
    Op.called (.declare name init :: ops) = init.toList.flatMap Expr.called ++ Op.called ops := by
  simp [Op.called, Op.allParts, Op.parts, Op.exprs]

@[simp] theorem called_eval (value : Expr) : Op.called (.eval value :: ops) = value.called ++ Op.called ops := by
  simp [Op.called, Op.allParts, Op.parts, Op.exprs]

@[simp] theorem called_branch (test : Expr) (whenTrue whenFalse : List Op) :
    Op.called (.branch test whenTrue whenFalse :: ops) =
      test.called ++ Op.called whenTrue ++ Op.called whenFalse ++ Op.called ops := by
  simp [Op.called, Op.allParts, Op.parts, Op.exprs]

@[simp] theorem called_loop (counter : String) (init : Option Expr) (condition iteration : Expr) (body : List Op) :
    Op.called (.loop counter init condition iteration body :: ops) =
      init.toList.flatMap Expr.called ++ condition.called ++ iteration.called ++ Op.called body ++ Op.called ops := by
  simp [Op.called, Op.allParts, Op.parts, Op.exprs]

@[simp] theorem called_each (item : String) (collection : Expr) (body : List Op) :
    Op.called (.each item collection body :: ops) = collection.called ++ Op.called body ++ Op.called ops := by
  simp [Op.called, Op.allParts, Op.parts, Op.exprs]

end Op

namespace Generation

open Event

variable {casing : Casing} {names : Names} {n : Naming}

mutual

/-- an expression and its lowering call the same names -/
theorem called_expression : ∀ {e : Expression} {x : Expr}, n.expression e = .ok x →
    x.called = Event.called (Event.ofExpression e)
  | .name name _, x, h => by
    simp only [Naming.expression, Naming.resolve, Except.ok.injEq] at h
    subst h
    rw [Event.ofExpression]
    repeat' split
    all_goals rfl
  | .member object name _, x, h => by
    simp only [Naming.expression, bind_eq_ok] at h
    obtain ⟨o, ho, ⟨⟩⟩ := h
    rw [Event.ofExpression, Expr.called]
    exact called_expression ho
  | .literal raw, x, h => by
    rw [Naming.expression] at h
    split at h
    · cases h
      rw [Event.ofExpression]
      rfl
    · cases h
  | .call callee arguments, x, h => by
    simp only [Naming.expression, bind_eq_ok] at h
    obtain ⟨as, has, h⟩ := h
    have hargs := called_expressions has
    cases callee with
    | name name position =>
      simp only at h
      split at h
      · cases h
      cases h
      rw [Event.ofExpression, Event.ofExpression, Expr.called, hargs]
      rfl
    | member object name position =>
      simp only [bind_eq_ok] at h
      obtain ⟨o, ho, ⟨⟩⟩ := h
      rw [Event.ofExpression, Event.ofExpression, Expr.called, hargs, called_expression ho]
      exact (Event.called_append _ _).symm
    | _ => cases h
  | .index target key, x, h => by
    simp only [Naming.expression, bind_eq_ok] at h
    obtain ⟨t, ht, k, hk, ⟨⟩⟩ := h
    rw [Event.ofExpression, Expr.called, called_expression ht, called_expression hk]
    exact (Event.called_append _ _).symm
  | .array items, x, h => by
    simp only [Naming.expression, bind_eq_ok] at h
    obtain ⟨is, his, ⟨⟩⟩ := h
    rw [Event.ofExpression]
    exact called_expressions his
  | .unary op fixity operand, x, h => by
    rw [Event.ofExpression]
    cases Naming.lowersUnary_of_ok h with
    | apply ho hx =>
      rw [Expr.called]
      exact called_expression hx
    | update hs ht hl => rw [ht, Event.ofExpression]; rfl
  | .binary left op right, x, h => by
    -- the name on the left of an assignment calls nothing
    rw [Event.ofExpression]
    cases Naming.lowersBinary_of_ok h with
    | apply ho hx hy =>
      rw [Expr.called, called_expression hx, called_expression hy]
      exact (Event.called_append _ _).symm
    | set ho ht hl hy =>
      rw [ht, Event.ofExpression, Expr.called, called_expression hy]
      rfl
    | combine hn hc ho ht hl hy =>
      rw [ht, Event.ofExpression, Expr.called, Expr.called, called_expression hy]
      rfl
  | .conditional test whenTrue whenFalse, x, h => by
    simp only [Naming.expression, bind_eq_ok] at h
    obtain ⟨t, ht, w, hw, f, hf, ⟨⟩⟩ := h
    rw [Event.ofExpression, Expr.called, called_expression ht, called_expression hw, called_expression hf,
      ← Event.called_append, ← Event.called_append]
    rfl

theorem called_expressions : ∀ {es : List Expression} {xs : List Expr}, n.expressions es = .ok xs →
    Expr.calledAll xs = Event.called (Event.ofExpressions es)
  | [], xs, h => by
    rw [Naming.expressions] at h
    cases h
    rw [Event.ofExpressions]
    rfl
  | e :: es, xs, h => by
    simp only [Naming.expressions, bind_eq_ok] at h
    obtain ⟨y, hy, ys, hys, ⟨⟩⟩ := h
    rw [Event.ofExpressions, Expr.calledAll, called_expression hy, called_expressions hys, Event.called_append]

end

/-! ## Calls of operations -/

theorem called_site {source : Expression} {s : Site casing} (h : site casing names source = .ok s) :
    s.expr.called = Event.called (Event.ofExpression source) :=
  called_expression (of_site h).2

theorem called_siteOption {source : Option Expression} {s : Option (Site casing)}
    (h : siteOption casing names source = .ok s) :
    (s.map Site.expr).toList.flatMap Expr.called = Event.called (Event.ofOption source) := by
  cases source with
  | none => cases h; rfl
  | some e =>
    simp only [siteOption, bind_eq_ok] at h
    obtain ⟨st, hst, ⟨⟩⟩ := h
    rw [Option.map_some, Option.toList_some, List.flatMap_singleton, called_site hst]
    rfl

/-- what joins neighbouring texts changes no call -/
theorem called_pack (ops more : List Op) : Op.called (Op.pack ops more) = Op.called ops ++ Op.called more := by
  induction more generalizing ops with
  | nil => exact (List.append_nil _).symm
  | cons op more ih =>
    have hadd : Op.called (Op.add ops op) = Op.called (ops ++ [op]) := by
      unfold Op.add
      split
      · next s =>
        split
        · simp
        unfold Builder.appendText
        split
        · next last _ =>
          obtain ⟨init, rfl⟩ := List.getLast?_eq_some_iff.1 ‹_›
          simp
        · rfl
      · rfl
    have h := ih (Op.add ops op)
    rw [hadd, ← Op.called_append, List.append_assoc, List.singleton_append] at h
    rw [← Op.called_append]
    exact h

@[simp] theorem called_program (ops : List (SitedOp casing)) :
    Op.called (SitedOp.program ops) = Op.called (SitedOp.eraseAll ops) := called_pack [] _

/-! ## Calls of segments -/

/-- the helpers that the bodies of some declarations call -/
def calledIn (casing : Casing) (ds : List Declared) : List String :=
  ds.flatMap fun d => Op.called (SitedOp.eraseAll (d.sited casing))

@[simp] theorem calledIn_nil : calledIn casing [] = [] := rfl

@[simp] theorem calledIn_append (ds es : List Declared) :
    calledIn casing (ds ++ es) = calledIn casing ds ++ calledIn casing es := List.flatMap_append

/-- the operations of some segments with the bodies declared in them call what a visit sees called -/
def SameCalls (casing : Casing) (events : List Event) (ops : List (SitedOp casing)) (ds : List Declared) : Prop :=
  ∀ name, name ∈ Event.called events ↔ name ∈ Op.called (SitedOp.eraseAll ops) ∨ name ∈ calledIn casing ds

theorem called_parts {parts : List ValuePart} {ops : List (SitedOp casing)}
    (h : sitedParts casing names parts = .ok ops) :
    Op.called (SitedOp.eraseAll ops) = Event.called (parts.flatMap Event.ofPart) := by
  induction parts generalizing ops with
  | nil => cases h; rfl
  | cons part parts ih =>
    simp only [sitedParts, bind_eq_ok] at h
    obtain ⟨op, hop, more, hmore, ⟨⟩⟩ := h
    cases part with
    | text s =>
      cases hop
      simp [SitedOp.eraseAll, SitedOp.erase, ih hmore, Event.ofPart]
    | inline i =>
      simp only [sitedPart, bind_eq_ok] at hop
      obtain ⟨st, hst, ⟨⟩⟩ := hop
      simp [SitedOp.eraseAll, SitedOp.erase, ih hmore, called_site hst, Event.ofPart]

theorem called_attribute {a : Attribute} {ops : List (SitedOp casing)} (h : sitedAttribute casing names a = .ok ops)
    (ha : a.Whole) : Op.called (SitedOp.eraseAll ops) = Event.called (Event.ofAttribute a) := by
  unfold sitedAttribute at h
  unfold Event.ofAttribute
  cases hq : a.quote with
  | none =>
    rw [hq] at h
    cases h
    rw [ha hq]
    rfl
  | some quote =>
    rw [hq] at h
    by_cases hp : a.values.any ValuePart.isInline
    · simp only [if_pos hp, bind_eq_ok] at h
      obtain ⟨parts, hparts, ⟨⟩⟩ := h
      simp [SitedOp.eraseAll, SitedOp.erase, eraseAll_append, called_parts hparts]
    · simp only [if_neg hp] at h
      cases h
      simp [SitedOp.eraseAll, SitedOp.erase, ValuePart.flatMap_plain (f := Event.ofPart) (fun _ => rfl) hp]

theorem called_attributes {as : List Attribute} {ops : List (SitedOp casing)}
    (h : sitedAttributes casing names as = .ok ops) (ha : ∀ a ∈ as, a.Whole) :
    Op.called (SitedOp.eraseAll ops) = Event.called (as.flatMap Event.ofAttribute) := by
  induction as generalizing ops with
  | nil => cases h; rfl
  | cons a as ih =>
    simp only [sitedAttributes, bind_eq_ok] at h
    obtain ⟨ops₁, h₁, ops₂, h₂, ⟨⟩⟩ := h
    obtain ⟨ha, has⟩ := List.forall_mem_cons.1 ha
    simp [eraseAll_append, called_attribute h₁ ha, ih h₂ has]

theorem called_tag {tag : Tag} {ops : List (SitedOp casing)} (h : sitedTag casing names tag = .ok ops)
    (ha : ∀ a ∈ tag.attributes, a.Whole) : Op.called (SitedOp.eraseAll ops) = Event.called (Event.ofTag tag) := by
  simp only [sitedTag, bind_eq_ok] at h
  obtain ⟨as, has, ⟨⟩⟩ := h
  simp [SitedOp.eraseAll, SitedOp.erase, eraseAll_append, called_attributes has ha, Event.ofTag_eq]

theorem called_ofSegment (s : Segment) :
    Event.called (Event.ofSegment (fun _ => true) s) = Event.called (inside s) := by
  simp [ofSegment_eq]

/-- a segment that declares nothing -/
theorem sameCalls_of_eq {s : Segment} {ops : List (SitedOp casing)} (hd : declared s = [])
    (h : Op.called (SitedOp.eraseAll ops) = Event.called (inside s)) :
    SameCalls casing (Event.ofSegment (fun _ => true) s) ops (declared s) := by
  intro name
  simp [called_ofSegment, hd, h]

/-- a declaration leaves no operation behind, but its body is among those declared -/
theorem sameCalls_declaration {s : Segment} {d : Declared} {r : List (SitedOp casing) × Names}
    (hs : inside s = Event.ofSegments (fun _ => true) d.body) (hd : declared s = declaredAll d.body ++ [d])
    (h : sitedAll casing (.ofLocals d.parameters) d.body = .ok r)
    (ih : SameCalls casing (Event.ofSegments (fun _ => true) d.body) r.1 (declaredAll d.body)) :
    SameCalls casing (Event.ofSegment (fun _ => true) s) [] (declared s) := by
  intro name
  have hr : calledIn casing [d] = Op.called (SitedOp.eraseAll r.1) := by
    rw [calledIn, List.flatMap_singleton, Declared.sited, h]
  rw [called_ofSegment, hs, ih name, hd, calledIn_append, List.mem_append, hr, or_comm]
  simp [SitedOp.eraseAll]

/-- a test calls what it does, and its branches what they do -/
theorem sameCalls_branch {test : Expression} {t : Site casing} {body otherwise : List Event}
    {whenTrue whenFalse : List (SitedOp casing)} {ds es : List Declared}
    (ht : site casing names test = .ok t) (hw : SameCalls casing body whenTrue ds)
    (hf : SameCalls casing otherwise whenFalse es) :
    SameCalls casing (Event.ofExpression test ++ body ++ otherwise) [.branch t whenTrue whenFalse] (ds ++ es) := by
  intro name
  have htest : name ∈ t.expr.called ↔ name ∈ Event.called (Event.ofExpression test) := by rw [called_site ht]
  have hbranch : Op.called (SitedOp.eraseAll [.branch t whenTrue whenFalse]) = t.expr.called ++
      Op.called (SitedOp.program whenTrue) ++ Op.called (SitedOp.program whenFalse) ++ [] := Op.called_branch [] ..
  simp only [Event.called_append, List.mem_append, hbranch, called_program, calledIn_append, htest, hw name, hf name,
    List.not_mem_nil, or_false]
  tauto

mutual

/-- **What a visit sees called is called.** The names that a segment calls are those that its operations and the bodies
declared in it call. -/
theorem called_sited {names : Names} {r : List (SitedOp casing) × Names} : ∀ {s : Segment}, sited casing names s = .ok r →
    AllWhole (ofSegment (fun _ => true) s) → SameCalls casing (Event.ofSegment (fun _ => true) s) r.1 (declared s)
  | .text _, h, _ => by rw [sited] at h; cases h; exact sameCalls_of_eq rfl rfl
  | .htmlComment .., h, _ => by rw [sited] at h; cases h; exact sameCalls_of_eq rfl rfl
  | .docType .., h, _ => by rw [sited] at h; cases h; exact sameCalls_of_eq rfl rfl
  | .comment _, h, _ => by rw [sited] at h; cases h; exact sameCalls_of_eq rfl rfl
  | .element tag children close, h, hw => by
    obtain ⟨ha, hw⟩ := allWhole_ofSegment.1 hw
    have hchildren := (allWhole_append.1 hw).2
    simp only [sited, bind_eq_ok] at h
    obtain ⟨head, hhead, ⟨ops, after⟩, hops, ⟨⟩⟩ := h
    intro name
    have ih := called_sitedAll hops hchildren name
    simp only [called_ofSegment, inside, declared, Event.called_append, List.mem_append, ih, ← called_tag hhead ha,
      eraseAll_append, SitedOp.eraseAll, SitedOp.erase, Op.called_append, Op.called_text, Op.called_nil]
    simp [or_assoc]
  | .emptyElement tag closing, h, hw => by
    have ha : ∀ a ∈ tag.attributes, a.Whole := (allWhole_ofSegment.1 hw).1
    simp only [sited, bind_eq_ok] at h
    obtain ⟨head, hhead, ⟨⟩⟩ := h
    refine sameCalls_of_eq rfl ?_
    simp [eraseAll_append, SitedOp.eraseAll, SitedOp.erase, called_tag hhead ha, inside]
  | .inline i, h, _ => by
    simp only [sited, bind_eq_ok] at h
    obtain ⟨value, hv, ⟨⟩⟩ := h
    refine sameCalls_of_eq rfl ?_
    simp [SitedOp.eraseAll, SitedOp.erase, called_site hv, inside]
  | .declaration d, h, _ => by
    simp only [sited, bind_eq_ok] at h
    obtain ⟨init, hi, ⟨⟩⟩ := h
    refine sameCalls_of_eq rfl ?_
    simp only [SitedOp.eraseAll, SitedOp.erase, Op.called_declare, called_siteOption hi, inside, Op.called_nil,
      List.append_nil]
  | .action a, h, _ => by
    simp only [sited, bind_eq_ok] at h
    obtain ⟨value, hv, ⟨⟩⟩ := h
    refine sameCalls_of_eq rfl ?_
    simp [SitedOp.eraseAll, SitedOp.erase, called_site hv, inside]
  | .block ss, h, hw => by
    rw [sited] at h
    intro name
    rw [called_ofSegment, declared]
    exact called_sitedAll h (allWhole_ofSegment.1 hw).2 name
  | .branch test ss otherwise, h, hall => by
    obtain ⟨hx, hall⟩ := allWhole_ofSegment.1 hall
    obtain ⟨hbody, ho⟩ := allWhole_append.1 hall
    replace hbody := (allWhole_append.1 hbody).2
    simp only [sited, bind_eq_ok] at h
    obtain ⟨t, ht, ⟨w, _⟩, hw, f, hf, ⟨⟩⟩ := h
    intro name
    rw [called_ofSegment, declared]
    exact sameCalls_branch ht (called_sitedAll hw hbody) (called_sitedAlternative hf hx ho) name
  | .loop counter condition iteration ss, h, hw => by
    have hbody := (allWhole_append.1 (allWhole_ofSegment.1 hw).2).2
    simp only [sited, bind_eq_ok] at h
    obtain ⟨init, hi, c, hc, it, hit, ⟨ops, _⟩, hops, ⟨⟩⟩ := h
    intro name
    have ih := called_sitedAll hops hbody name
    have hloop : Op.called (SitedOp.eraseAll [.loop counter.name init c it ops]) =
        (init.map Site.expr).toList.flatMap Expr.called ++ c.expr.called ++ it.expr.called ++
          Op.called (SitedOp.program ops) ++ [] := Op.called_loop [] ..
    rw [called_ofSegment, inside, declared, hloop, called_siteOption hi, called_site hc, called_site hit, called_program]
    simp only [Event.called_append, List.mem_append, ih, List.not_mem_nil, or_false, or_assoc]
  | .each item collection ss, h, hw => by
    have hbody := (allWhole_append.1 (allWhole_ofSegment.1 hw).2).2
    simp only [sited, bind_eq_ok] at h
    obtain ⟨c, hc, ⟨ops, _⟩, hops, ⟨⟩⟩ := h
    intro name
    have ih := called_sitedAll hops hbody name
    have heach : Op.called (SitedOp.eraseAll [.each item c ops]) =
        c.expr.called ++ Op.called (SitedOp.program ops) ++ [] := Op.called_each [] ..
    rw [called_ofSegment, inside, declared, heach, called_site hc, called_program]
    simp only [Event.called_append, List.mem_append, ih, List.not_mem_nil, or_false, or_assoc]
  | .helper name parameters ss, h, hw => by
    simp only [sited, bind_eq_ok] at h
    obtain ⟨r', h', ⟨⟩⟩ := h
    exact sameCalls_declaration (d := ⟨true, name, parameters, ss⟩) rfl (by rw [declared]) h'
      (called_sitedAll h' (allWhole_ofSegment.1 hw).2)
  | .namedSection name ss, h, hw => by
    simp only [sited, bind_eq_ok] at h
    obtain ⟨r', h', ⟨⟩⟩ := h
    exact sameCalls_declaration (d := ⟨false, name, [], ss⟩) rfl (by rw [declared]) h'
      (called_sitedAll h' (allWhole_ofSegment.1 hw).2)

theorem called_sitedAll {names : Names} {r : List (SitedOp casing) × Names} : ∀ {ss : List Segment},
    sitedAll casing names ss = .ok r → AllWhole (ofSegments (fun _ => true) ss) →
    SameCalls casing (Event.ofSegments (fun _ => true) ss) r.1 (declaredAll ss)
  | [], h, _ => by
    rw [sitedAll] at h
    cases h
    intro name
    simp [Event.ofSegments, declaredAll, SitedOp.eraseAll]
  | s :: ss, h, hw => by
    obtain ⟨hs, hss⟩ := allWhole_append.1 hw
    simp only [sitedAll, bind_eq_ok] at h
    obtain ⟨⟨ops, _⟩, h₁, ⟨more, _⟩, h₂, ⟨⟩⟩ := h
    intro name
    have h₁ := called_sited h₁ hs name
    have h₂ := called_sitedAll h₂ hss name
    simp only [Event.ofSegments, Event.called_append, List.mem_append, declaredAll, eraseAll_append, Op.called_append,
      calledIn_append, h₁, h₂]
    exact or_or_or_comm

theorem called_sitedAlternative {names : Names} {ops : List (SitedOp casing)} : ∀ {a : Alternative},
    sitedAlternative casing names a = .ok ops → a.Exclusive → AllWhole (ofAlternative (fun _ => true) a) →
    SameCalls casing (Event.ofAlternative (fun _ => true) a) ops (declaredAlternative a)
  | .nothing, h, _, _ => by
    rw [sitedAlternative] at h
    cases h
    intro name
    simp [Event.ofAlternative, declaredAlternative, SitedOp.eraseAll]
  | .elseBranch test ss otherwise, h, hx, hall => by
    obtain ⟨hbody, ho⟩ := allWhole_append.1 hall
    replace hbody := (allWhole_append.1 hbody).2
    simp only [sitedAlternative, bind_eq_ok] at h
    obtain ⟨t, ht, ⟨w, _⟩, hw, f, hf, ⟨⟩⟩ := h
    rw [Event.ofAlternative, declaredAlternative]
    exact sameCalls_branch ht (called_sitedAll hw hbody) (called_sitedAlternative hf hx ho)
  | .elseBody ss, h, _, hbody => by
    simp only [sitedAlternative, bind_eq_ok] at h
    obtain ⟨⟨w, _⟩, hw, ⟨⟩⟩ := h
    rw [Event.ofAlternative, declaredAlternative]
    exact called_sitedAll hw hbody
  | .both .., _, hx, _ => hx.elim

end

end Generation

end TemplateView
