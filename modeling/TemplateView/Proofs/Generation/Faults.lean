/-
What a template cannot be lowered for. `Event.Fault` lists the faults of one node of an expression. An `Occurrence` is an
expression with the names declared where it stands. `Checks` compares a computation with the items it goes through: it fails
for a fault of one of them, and succeeds only if none has any. `checks_sitedAll` says this of the lowering of segments and
their occurrences.
-/
import TemplateView.Proofs.Generation.Assembly
import TemplateView.Proofs.Visit

namespace TemplateView

open TemplateView.Generation

/-! ## Faults -/

/-- a declared local by its bare name -/
def Expression.IsLocal (isLocal : String → Bool) : Expression → Prop
  | .name x _ => isLocal x = true
  | _ => False

/-- what a node of an expression cannot be lowered for -/
inductive Event.Fault (isLocal : String → Bool) : Event → GenerationCause → Prop
  /-- a literal that stands for no value -/
  | invalidLiteral {raw : String} (h : literalValue? raw = none) :
    Fault isLocal (.expression (.literal raw)) (.invalidLiteral raw)
  /-- a call of a declared local -/
  | calledLocal {name : String} {position : Position} {arguments : List Expression} (h : isLocal name = true) :
    Fault isLocal (.expression (.call (.name name position) arguments)) (.calledLocal name)
  /-- a call of something that is neither a name nor a member -/
  | notCallable {callee : Expression} {arguments : List Expression} (h : callee.isAccess = false) :
    Fault isLocal (.expression (.call callee arguments)) .notCallable
  /-- an operator beside its operand that is not known -/
  | unsupportedUnary {operator : String} {fixity : Fixity} {operand : Expression}
    (ho : UnaryOperator.ofText? operator = none) (hs : Step.ofText? operator = none) :
    Fault isLocal (.expression (.unary operator fixity operand)) (.unsupportedUnary operator)
  /-- an update of something that is not a declared local -/
  | updateTarget {operator : String} {step : Step} {fixity : Fixity} {operand : Expression}
    (hs : Step.ofText? operator = some step) (h : ¬ operand.IsLocal isLocal) :
    Fault isLocal (.expression (.unary operator fixity operand)) (.updateTarget step)
  /-- an operator between two operands that is neither known nor an assignment -/
  | unsupportedOperator {left right : Expression} {operator : String} (ho : BinaryOperator.ofText? operator = none)
    (hc : compound? operator = none) :
    Fault isLocal (.expression (.binary left operator right)) (.unsupportedOperator operator)
  /-- an assignment to something that is not a declared local -/
  | assignTarget {left right : Expression} {operator compound : String} (ho : BinaryOperator.ofText? operator = none)
    (hc : compound? operator = some compound) (h : ¬ left.IsLocal isLocal) :
    Fault isLocal (.expression (.binary left operator right)) .assignTarget
  /-- an assignment that combines the old value with the new one in a way that is not known -/
  | unsupportedCompound {left right : Expression} {operator compound : String}
    (ho : BinaryOperator.ofText? operator = none) (hc : compound? operator = some compound) (hne : compound ≠ "")
    (hn : BinaryOperator.ofText? compound = none) (h : left.IsLocal isLocal) :
    Fault isLocal (.expression (.binary left operator right)) (.unsupportedOperator operator)

namespace Generation

/-! ## Checks -/

/-- the computation fails for a fault of one of the items, or none has any and the result is as described -/
def Checks {ι α : Type} (fault : ι → GenerationCause → Prop) (items : List ι) (Q : α → Prop) :
    Except GenerationCause α → Prop
  | .ok a => Q a ∧ ∀ i ∈ items, ∀ c, ¬ fault i c
  | .error c => ∃ i ∈ items, fault i c

section

variable {ι κ α β : Type} {fault : ι → GenerationCause → Prop} {items more : List ι} {P : α → Prop} {Q : β → Prop}

theorem checks_pure {b : β} (h : Q b) : Checks fault [] Q (pure b) := ⟨h, nofun⟩

theorem checks_error {i : ι} {c : GenerationCause} (hi : i ∈ items) (h : fault i c) :
    Checks fault items Q (.error c) :=
  ⟨i, hi, h⟩

theorem checks_bind {x : Except GenerationCause α} {f : α → Except GenerationCause β} (hx : Checks fault items P x)
    (hf : ∀ a, P a → Checks fault more Q (f a)) : Checks fault (items ++ more) Q (x >>= f) := by
  cases x with
  | error c =>
    obtain ⟨i, hi, h⟩ := hx
    exact ⟨i, List.mem_append_left _ hi, h⟩
  | ok a =>
    obtain ⟨ha, hnone⟩ := hx
    have h := hf a ha
    show Checks fault (items ++ more) Q (f a)
    cases hfa : f a with
    | error c =>
      rw [hfa] at h
      obtain ⟨i, hi, hc⟩ := h
      exact ⟨i, List.mem_append_right _ hi, hc⟩
    | ok b =>
      rw [hfa] at h
      exact ⟨h.1, List.forall_mem_append.2 ⟨hnone, h.2⟩⟩

/-- the last step only changes the form of the result -/
theorem checks_map {x : Except GenerationCause α} {f : α → β} (hx : Checks fault items P x) (hf : ∀ a, P a → Q (f a)) :
    Checks fault items Q (x >>= fun a => pure (f a)) := by
  have h : Checks fault (items ++ []) Q (x >>= fun a => pure (f a)) := checks_bind hx fun a ha => checks_pure (hf a ha)
  rwa [List.append_nil] at h

/-- the order of the items does not matter -/
theorem Checks.congr {x : Except GenerationCause α} (h : Checks fault items P x) (hm : ∀ i, i ∈ items ↔ i ∈ more) :
    Checks fault more P x := by
  cases x with
  | error c =>
    obtain ⟨i, hi, hc⟩ := h
    exact ⟨i, (hm i).1 hi, hc⟩
  | ok a => exact ⟨h.1, fun i hi => h.2 i ((hm i).2 hi)⟩

/-- an item without faults -/
theorem Checks.cons {x : Except GenerationCause α} {i : ι} (h : Checks fault items P x) (hi : ∀ c, ¬ fault i c) :
    Checks fault (i :: items) P x := by
  cases x with
  | error c =>
    obtain ⟨j, hj, hc⟩ := h
    exact ⟨j, List.mem_cons_of_mem i hj, hc⟩
  | ok a => exact ⟨h.1, List.forall_mem_cons.2 ⟨hi, h.2⟩⟩

/-- items that together have the faults of one item of another kind -/
theorem Checks.single {other : κ → GenerationCause → Prop} {k : κ} {x : Except GenerationCause α}
    (h : Checks fault items P x) (hk : ∀ c, other k c ↔ ∃ i ∈ items, fault i c) : Checks other [k] P x := by
  cases x with
  | error c => exact ⟨k, List.mem_singleton_self k, (hk c).2 h⟩
  | ok a =>
    refine ⟨h.1, List.forall_mem_singleton.2 fun c hc => ?_⟩
    obtain ⟨i, hi, hf⟩ := (hk c).1 hc
    exact h.2 i hi c hf

end

/-! ## Expressions -/

theorem target?_eq_none {n : Naming} {e : Expression} (h : n.target? e = none) : ¬ e.IsLocal n.isLocal := by
  cases e with
  | name x p => exact fun hx => nomatch (if_pos hx).symm.trans h
  | _ => exact id

section

variable (n : Naming)

/-- the lowering of an expression fails for the faults of some nodes -/
abbrev ChecksNodes {α : Type} (events : List Event) (x : Except GenerationCause α) : Prop :=
  Checks (Event.Fault n.isLocal) events (fun _ => True) x

/-- a bare name has no faults -/
theorem checks_name (name : String) (p : Position) (e : Expr) :
    ChecksNodes n (Event.ofExpression (.name name p)) (pure e) := by
  rw [Event.ofExpression]
  refine (checks_pure trivial).cons fun c hc => ?_
  cases hc

/-- what is counted up or down is a bare name -/
theorem checks_update {operator : String} {step : Step} (hs : Step.ofText? operator = some step) (fixity : Fixity)
    (operand : Expression) :
    ChecksNodes n (.expression (.unary operator fixity operand) :: Event.ofExpression operand)
      (n.update step fixity operand) := by
  unfold Naming.update
  cases h : n.target? operand with
  | none => exact checks_error List.mem_cons_self (.updateTarget hs (target?_eq_none h))
  | some name =>
    obtain ⟨hl, p, rfl⟩ := Naming.target?_eq_some h
    refine (checks_name n name p _).cons fun c hc => ?_
    cases hc with
    | unsupportedUnary _ hn => cases hn.symm.trans hs
    | updateTarget _ hn => exact hn hl

/-- what is assigned to is a bare name -/
theorem checks_assignment {operator : String} (ho : BinaryOperator.ofText? operator = none) (left right : Expression)
    (value : Expr) :
    ChecksNodes n (.expression (.binary left operator right) :: Event.ofExpression left)
      (n.assignment left operator value) := by
  unfold Naming.assignment
  cases hc : compound? operator with
  | none => exact checks_error List.mem_cons_self (.unsupportedOperator ho hc)
  | some compound =>
    cases h : n.target? left with
    | none => exact checks_error List.mem_cons_self (.assignTarget ho hc (target?_eq_none h))
    | some name =>
      obtain ⟨hl, p, rfl⟩ := Naming.target?_eq_some h
      -- no fault is left if the way of combining is known
      have hnone (hknown : compound ≠ "" → BinaryOperator.ofText? compound ≠ none) (c : GenerationCause) :
          ¬ Event.Fault n.isLocal (.expression (.binary (.name name p) operator right)) c := by
        intro hf
        cases hf with
        | unsupportedOperator _ hn => cases hn.symm.trans hc
        | assignTarget _ _ hn => exact hn hl
        | unsupportedCompound _ hc' hne hn _ =>
          cases hc'.symm.trans hc
          exact hknown hne hn
      simp only
      split
      · next he => exact (checks_name n name p _).cons (hnone fun hne => absurd (String.isEmpty_iff.1 he) hne)
      next he =>
      have hne : compound ≠ "" := fun h => he (String.isEmpty_iff.2 h)
      cases hop : BinaryOperator.ofText? compound with
      | some op =>
        refine (checks_name n name p _).cons (hnone fun _ hn => ?_)
        cases hop.symm.trans hn
      | none => exact checks_error List.mem_cons_self (.unsupportedCompound ho hc hne hop hl)

mutual

/-- **An expression is lowered exactly if no node of it has a fault.** -/
theorem checks_expression : ∀ e : Expression, ChecksNodes n (Event.ofExpression e) (n.expression e)
  | .name name p => by
    rw [Naming.expression]
    exact checks_name n name p _
  | .member object name _ => by
    rw [Event.ofExpression, Naming.expression]
    exact (checks_map (checks_expression object) fun _ _ => trivial).cons nofun
  | .literal raw => by
    rw [Event.ofExpression, Naming.expression]
    cases h : literalValue? raw with
    | none => exact checks_error List.mem_cons_self (.invalidLiteral h)
    | some v =>
      refine (checks_pure trivial).cons fun c hc => ?_
      cases hc with
      | invalidLiteral hn => cases h.symm.trans hn
  | .call callee arguments => by
    rw [Event.ofExpression, Naming.expression.eq_def]
    have ha := checks_expressions arguments
    -- the arguments are lowered before what is called
    have swap : ∀ i : Event,
        i ∈ Event.ofExpressions arguments ++ (.expression (.call callee arguments)) :: Event.ofExpression callee ↔
        i ∈ (.expression (.call callee arguments)) :: (Event.ofExpression callee ++ Event.ofExpressions arguments) := by
      intro i
      simp only [List.mem_append, List.mem_cons]
      rw [or_comm, or_assoc]
    refine Checks.congr ?_ swap
    cases callee with
    | name name p =>
      refine checks_bind ha fun arguments _ => ?_
      show ChecksNodes n _ (if n.isLocal name then .error (.calledLocal name) else .ok (Expr.callHelper name arguments))
      split
      · next h => exact checks_error List.mem_cons_self (.calledLocal h)
      · next h =>
        refine (checks_name n name p _).cons fun c hc => ?_
        cases hc with
        | calledLocal hl => exact h hl
        | notCallable hn => cases hn
    | member object name p =>
      rw [Event.ofExpression]
      refine checks_bind ha fun arguments _ => ?_
      refine Checks.cons (Checks.cons (checks_map (checks_expression object) fun _ _ => trivial) nofun) fun c hc => ?_
      cases hc with
      | notCallable hn => cases hn
    | _ => exact checks_bind ha fun _ _ => checks_error List.mem_cons_self (.notCallable rfl)
  | .index target key => by
    rw [Event.ofExpression, Naming.expression]
    refine (checks_bind (checks_expression target) fun _ _ => ?_).cons nofun
    exact checks_map (checks_expression key) fun _ _ => trivial
  | .array items => by
    rw [Event.ofExpression, Naming.expression]
    exact (checks_map (checks_expressions items) fun _ _ => trivial).cons nofun
  | .unary operator fixity operand => by
    rw [Event.ofExpression, Naming.expression]
    cases ho : UnaryOperator.ofText? operator with
    | some op =>
      refine (checks_map (checks_expression operand) fun _ _ => trivial).cons fun c hc => ?_
      cases hc with
      | unsupportedUnary hn _ => cases hn.symm.trans ho
      | updateTarget hs _ => cases (UnaryOperator.ofText?_of_step hs).symm.trans ho
    | none =>
      cases hs : Step.ofText? operator with
      | some step => exact checks_update n hs fixity operand
      | none => exact checks_error List.mem_cons_self (.unsupportedUnary ho hs)
  | .binary left operator right => by
    rw [Event.ofExpression, Naming.expression]
    -- the right operand is lowered before the left one
    have swap : ∀ i : Event,
        i ∈ Event.ofExpression right ++ .expression (.binary left operator right) :: Event.ofExpression left ↔
        i ∈ .expression (.binary left operator right) :: (Event.ofExpression left ++ Event.ofExpression right) := by
      intro i
      simp only [List.mem_append, List.mem_cons]
      rw [or_comm, or_assoc]
    refine Checks.congr (checks_bind (checks_expression right) fun right' _ => ?_) swap
    cases ho : BinaryOperator.ofText? operator with
    | some op =>
      refine (checks_map (checks_expression left) fun _ _ => trivial).cons fun c hc => ?_
      cases hc with
      | unsupportedOperator hn => cases hn.symm.trans ho
      | assignTarget hn => cases hn.symm.trans ho
      | unsupportedCompound hn => cases hn.symm.trans ho
    | none => exact checks_assignment n ho left right right'
  | .conditional test whenTrue whenFalse => by
    rw [Event.ofExpression, Naming.expression, List.append_assoc]
    refine (checks_bind (checks_expression test) fun _ _ => ?_).cons nofun
    refine checks_bind (checks_expression whenTrue) fun _ _ => ?_
    exact checks_map (checks_expression whenFalse) fun _ _ => trivial

theorem checks_expressions : ∀ es : List Expression, ChecksNodes n (Event.ofExpressions es) (n.expressions es)
  | [] => by
    rw [Event.ofExpressions, Naming.expressions]
    exact checks_pure trivial
  | e :: es => by
    rw [Event.ofExpressions, Naming.expressions]
    refine checks_bind (checks_expression e) fun _ _ => ?_
    exact checks_map (checks_expressions es) fun _ _ => trivial

end

end

/-! ## Segments -/

/-- an expression with the names declared where it stands -/
structure Occurrence where
  names : Names
  expression : Expression

namespace Occurrence

/-- what it cannot be lowered for -/
def Fault (o : Occurrence) (c : GenerationCause) : Prop :=
  ∃ ev ∈ Event.ofExpression o.expression, ev.Fault o.names.isDeclared c

def ofOption (names : Names) : Option Expression → List Occurrence
  | none => []
  | some e => [⟨names, e⟩]

def ofPart (names : Names) : ValuePart → List Occurrence
  | .text _ => []
  | .inline i => [⟨names, i.expression⟩]

def ofAttribute (names : Names) (a : Attribute) : List Occurrence :=
  match a.quote with
  | none => []
  | some _ => a.values.flatMap (ofPart names)

def ofTag (names : Names) (tag : Tag) : List Occurrence := tag.attributes.flatMap (ofAttribute names)

end Occurrence

end Generation

mutual

/-- the names declared behind a segment: a block and the content of an element share the scope around them -/
def Names.behind (names : Names) : Segment → Names
  | .element _ children _ => names.behindAll children
  | .block ss => names.behindAll ss
  | .declaration d => names.declare d.name
  | _ => names

def Names.behindAll (names : Names) : List Segment → Names
  | [] => names
  | s :: ss => (names.behind s).behindAll ss

end

namespace Generation

namespace Occurrence

mutual

/-- the expressions in a segment, at whatever depth -/
def ofSegment (names : Names) : Segment → List Occurrence
  | .element tag children _ => ofTag names tag ++ ofSegments names children
  | .emptyElement tag _ => ofTag names tag
  | .inline i => [⟨names, i.expression⟩]
  | .block ss => ofSegments names ss
  | .declaration d => ofOption names d.init
  | .branch test ss otherwise =>
    ⟨names, test⟩ :: (ofSegments names.nest ss ++ ofAlternative names otherwise)
  | .loop counter condition iteration ss =>
    ofOption names.nest counter.init ++ ⟨names.nest.declare counter.name, condition⟩ ::
      ⟨names.nest.declare counter.name, iteration⟩ :: ofSegments (names.nest.declare counter.name).nest ss
  | .each item collection ss => ⟨names, collection⟩ :: ofSegments (names.nest.declare item) ss
  | .action e => [⟨names, e⟩]
  | .helper _ parameters ss => ofSegments (.ofLocals parameters) ss
  | .namedSection _ ss => ofSegments (.ofLocals []) ss
  | _ => []

def ofSegments (names : Names) : List Segment → List Occurrence
  | [] => []
  | s :: ss => ofSegment names s ++ ofSegments (names.behind s) ss

/-- the expressions in what follows the body of an `if` -/
def ofAlternative (names : Names) : Alternative → List Occurrence
  | .nothing => []
  | .elseBranch test ss otherwise | .both test ss otherwise _ =>
    ⟨names, test⟩ :: (ofSegments names.nest ss ++ ofAlternative names otherwise)
  | .elseBody ss => ofSegments names.nest ss

end

end Occurrence

section

variable (casing : Casing)

/-- the lowering of a part of a template fails for the faults of its expressions -/
abbrev ChecksAll {α : Type} (os : List Occurrence) (Q : α → Prop) (x : Except GenerationCause α) : Prop :=
  Checks Occurrence.Fault os Q x

theorem checks_site (names : Names) (e : Expression) : ChecksAll [⟨names, e⟩] (fun _ => True) (site casing names e) := by
  have h : ChecksAll [⟨names, e⟩] (fun _ => True) ((names.naming casing).expression e) :=
    (checks_expression (names.naming casing) e).single fun _ => Iff.rfl
  cases he : (names.naming casing).expression e with
  | error c =>
    rw [he] at h
    rw [site_of_error he]
    exact h
  | ok x =>
    rw [he] at h
    rw [site_of_ok he]
    exact ⟨trivial, h.2⟩

theorem checks_siteOption (names : Names) (e : Option Expression) :
    ChecksAll (Occurrence.ofOption names e) (fun _ => True) (siteOption casing names e) := by
  cases e with
  | none => exact checks_pure trivial
  | some e => exact checks_map (checks_site casing names _) fun _ _ => trivial

theorem checks_parts (names : Names) (parts : List ValuePart) :
    ChecksAll (parts.flatMap (Occurrence.ofPart names)) (fun _ => True) (sitedParts casing names parts) := by
  induction parts with
  | nil => exact checks_pure trivial
  | cons part parts ih =>
    rw [List.flatMap_cons]
    refine checks_bind (P := fun _ => True) ?_ fun op _ => checks_map ih fun _ _ => trivial
    cases part with
    | text s => exact checks_pure trivial
    | inline i => exact checks_map (checks_site casing names _) fun _ _ => trivial

theorem checks_attribute (names : Names) (a : Attribute) :
    ChecksAll (Occurrence.ofAttribute names a) (fun _ => True) (sitedAttribute casing names a) := by
  unfold Occurrence.ofAttribute sitedAttribute
  cases a.quote with
  | none => exact checks_pure trivial
  | some quote =>
    simp only
    split
    · exact checks_map (checks_parts casing names a.values) fun _ _ => trivial
    · next h =>
      rw [ValuePart.flatMap_plain (fun _ => rfl) h]
      exact checks_pure trivial

theorem checks_attributes (names : Names) (as : List Attribute) :
    ChecksAll (as.flatMap (Occurrence.ofAttribute names)) (fun _ => True) (sitedAttributes casing names as) := by
  induction as with
  | nil => exact checks_pure trivial
  | cons a as ih =>
    rw [List.flatMap_cons]
    exact checks_bind (checks_attribute casing names a) fun ops _ => checks_map ih fun _ _ => trivial

theorem checks_tag (names : Names) (tag : Tag) :
    ChecksAll (Occurrence.ofTag names tag) (fun _ => True) (sitedTag casing names tag) :=
  checks_map (checks_attributes casing names tag.attributes) fun _ _ => trivial

mutual

/-- **A segment is lowered exactly if nothing in it has a fault.** -/
theorem checks_sited (names : Names) : ∀ s : Segment,
    ChecksAll (Occurrence.ofSegment names s) (fun r => r.2 = names.behind s) (sited casing names s)
  | .text s => checks_pure rfl
  | .element tag children close => by
    rw [Occurrence.ofSegment, sited, Names.behind]
    refine checks_bind (checks_tag casing names tag) fun head _ => ?_
    exact checks_map (checks_sitedAll names children) fun r hr => hr
  | .emptyElement tag closing => by
    rw [Occurrence.ofSegment, sited]
    exact checks_map (checks_tag casing names tag) fun _ _ => rfl
  | .htmlComment leading s => checks_pure rfl
  | .docType leading d => checks_pure rfl
  | .inline i => by
    rw [Occurrence.ofSegment, sited]
    exact checks_map (checks_site casing names _) fun _ _ => rfl
  | .block ss => by
    rw [Occurrence.ofSegment, sited, Names.behind]
    exact checks_sitedAll names ss
  | .declaration d => by
    rw [Occurrence.ofSegment, sited]
    exact checks_map (checks_siteOption casing names d.init) fun _ _ => rfl
  | .branch test ss otherwise => by
    rw [Occurrence.ofSegment, sited]
    refine checks_bind (checks_site casing names _) fun test _ => ?_
    refine checks_bind (checks_sitedAll names.nest ss) fun whenTrue _ => ?_
    exact checks_map (checks_sitedAlternative names otherwise) fun _ _ => rfl
  | .loop counter condition iteration ss => by
    rw [Occurrence.ofSegment, sited]
    refine checks_bind (checks_siteOption casing names.nest counter.init) fun init _ => ?_
    refine checks_bind (checks_site casing (names.nest.declare counter.name) _) fun condition _ => ?_
    refine checks_bind (checks_site casing (names.nest.declare counter.name) _) fun iteration _ => ?_
    exact checks_map (checks_sitedAll (names.nest.declare counter.name).nest ss) fun _ _ => rfl
  | .each item collection ss => by
    rw [Occurrence.ofSegment, sited]
    refine checks_bind (checks_site casing names _) fun collection _ => ?_
    exact checks_map (checks_sitedAll (names.nest.declare item) ss) fun _ _ => rfl
  | .action a => by
    rw [Occurrence.ofSegment, sited]
    exact checks_map (checks_site casing names a) fun _ _ => rfl
  | .helper name parameters ss => by
    rw [Occurrence.ofSegment, sited]
    exact checks_map (checks_sitedAll (.ofLocals parameters) ss) fun _ _ => rfl
  | .namedSection name ss => by
    rw [Occurrence.ofSegment, sited]
    exact checks_map (checks_sitedAll (.ofLocals []) ss) fun _ _ => rfl
  | .comment s => checks_pure rfl

theorem checks_sitedAll (names : Names) : ∀ ss : List Segment,
    ChecksAll (Occurrence.ofSegments names ss) (fun r => r.2 = names.behindAll ss) (sitedAll casing names ss)
  | [] => checks_pure rfl
  | s :: ss => by
    rw [Occurrence.ofSegments, sitedAll, Names.behindAll]
    refine checks_bind (checks_sited names s) fun r hr => ?_
    obtain ⟨ops, _⟩ := r
    cases hr
    exact checks_map (checks_sitedAll _ ss) fun r hr => hr

theorem checks_sitedAlternative (names : Names) : ∀ a : Alternative,
    ChecksAll (Occurrence.ofAlternative names a) (fun _ => True) (sitedAlternative casing names a)
  | .nothing => checks_pure trivial
  | .elseBranch test ss otherwise | .both test ss otherwise _ => by
    rw [Occurrence.ofAlternative, sitedAlternative]
    refine checks_bind (checks_site casing names _) fun test _ => ?_
    refine checks_bind (checks_sitedAll names.nest ss) fun whenTrue _ => ?_
    exact checks_map (checks_sitedAlternative names otherwise) fun _ _ => trivial
  | .elseBody ss => by
    rw [Occurrence.ofAlternative, sitedAlternative]
    exact checks_map (checks_sitedAll names.nest ss) fun _ _ => trivial

end

end

/-! ## Nodes of occurrences -/

/-- the nodes of some expressions are among some events -/
def Occurrence.Among (os : List Occurrence) (events : List Event) : Prop :=
  ∀ o ∈ os, Event.ofExpression o.expression ⊆ events

namespace Occurrence

variable {os os' : List Occurrence} {events events' : List Event}

theorem among_nil : Among [] events := nofun

theorem among_single (names : Names) (e : Expression) : Among [⟨names, e⟩] (Event.ofExpression e) :=
  List.forall_mem_singleton.2 (List.Subset.refl _)

theorem Among.append (h : Among os events) (h' : Among os' events') : Among (os ++ os') (events ++ events') :=
  List.forall_mem_append.2
    ⟨fun o ho => List.subset_append_of_subset_left _ (h o ho), fun o ho => List.subset_append_of_subset_right _ (h' o ho)⟩

theorem Among.flatMap {α : Type} {f : α → List Occurrence} {g : α → List Event} {items : List α}
    (h : ∀ i ∈ items, Among (f i) (g i)) : Among (items.flatMap f) (items.flatMap g) := by
  intro o ho ev hev
  obtain ⟨i, hi, ho⟩ := List.mem_flatMap.1 ho
  exact List.mem_flatMap.2 ⟨i, hi, h i hi o ho hev⟩

theorem among_option (names : Names) (e : Option Expression) : Among (ofOption names e) (Event.ofOption e) := by
  cases e with
  | none => exact among_nil
  | some e => exact among_single names e

theorem among_tag (names : Names) (tag : Tag) : Among (ofTag names tag) (Event.ofTag tag) := by
  rw [Event.ofTag_eq]
  refine Among.flatMap fun a _ => ?_
  unfold ofAttribute Event.ofAttribute
  cases a.quote with
  | none => exact among_nil
  | some quote =>
    refine Among.flatMap fun part _ => ?_
    cases part with
    | text s => exact among_nil
    | inline i => exact among_single names i.expression

theorem Among.segment {s : Segment} (h : Among os (inside s)) : Among os (Event.ofSegment (fun _ => true) s) := by
  rw [ofSegment_eq]
  exact fun o ho ev hev => List.mem_cons_of_mem _ (List.mem_append_left _ (h o ho hev))

mutual

theorem among_ofSegment (names : Names) : ∀ s : Segment, Among (ofSegment names s) (inside s)
  | .text _ => among_nil
  | .element tag children close => (among_tag names tag).append (among_ofSegments names children)
  | .emptyElement tag closing => among_tag names tag
  | .htmlComment .. => among_nil
  | .docType .. => among_nil
  | .inline i => among_single names i.expression
  | .block ss => among_ofSegments names ss
  | .declaration d => among_option names d.init
  | .branch test ss otherwise => by
    rw [inside, List.append_assoc]
    exact (among_single names test).append
      ((among_ofSegments names.nest ss).append (among_ofAlternative names otherwise))
  | .loop counter condition iteration ss => by
    rw [inside, List.append_assoc, List.append_assoc]
    exact (among_option names.nest counter.init).append ((among_single _ condition).append
      ((among_single _ iteration).append (among_ofSegments (names.nest.declare counter.name).nest ss)))
  | .each item collection ss =>
    (among_single names collection).append (among_ofSegments (names.nest.declare item) ss)
  | .action a => among_single names a
  | .helper _ parameters ss => among_ofSegments (.ofLocals parameters) ss
  | .namedSection _ ss => among_ofSegments (.ofLocals []) ss
  | .comment _ => among_nil

theorem among_ofSegments (names : Names) : ∀ ss : List Segment,
    Among (ofSegments names ss) (Event.ofSegments (fun _ => true) ss)
  | [] => among_nil
  | s :: ss => by
    rw [ofSegments, Event.ofSegments]
    exact (among_ofSegment names s).segment.append (among_ofSegments (names.behind s) ss)

theorem among_ofAlternative (names : Names) : ∀ a : Alternative,
    Among (ofAlternative names a) (Event.ofAlternative (fun _ => true) a)
  | .nothing => among_nil
  | .elseBranch test ss otherwise => by
    rw [ofAlternative, Event.ofAlternative, List.append_assoc]
    exact (among_single names test).append
      ((among_ofSegments names.nest ss).append (among_ofAlternative names otherwise))
  | .elseBody ss => among_ofSegments names.nest ss
  | .both test ss otherwise elseBody => by
    rw [ofAlternative, Event.ofAlternative]
    refine fun o ho => List.subset_append_of_subset_left _ ?_
    rw [List.append_assoc]
    have hrest := (among_ofSegments names.nest ss).append (among_ofAlternative names otherwise)
    exact (among_single names test).append hrest o ho

end

end Occurrence

end Generation

/-- the expressions of a template, those of helpers and sections included -/
def Template.occurrences (t : Template) : List Occurrence := Occurrence.ofSegments .empty t.segments

end TemplateView
