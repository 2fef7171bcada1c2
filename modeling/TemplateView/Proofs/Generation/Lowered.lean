/-
What lowered expressions hold. A lowering makes a node of a node of the template, or of two where a name or a member is
called; what nodes of the template say of those made of them (`Naming.Carries`) holds of all nodes of the lowering
(`every_expression`). One use follows here: constants are the values of literals, which hold no markup; locals are names that
were declared where they were lowered; and the helpers that are called are called in the template.
-/
import TemplateView.Inventory
import TemplateView.Proofs.Generation.Compilation
import TemplateView.Proofs.Value.Markup

namespace TemplateView

/-! ## Events of a template -/

/-- some events are all as described -/
def Event.All (S : Event → Prop) (events : List Event) : Prop := ∀ e ∈ events, S e

/-- the bare name that an event calls, if it calls one, is as described -/
def Event.Calls (C : String → Prop) (e : Event) : Prop := ∀ name, Inventory.calledName? e = some name → C name

namespace Event

variable {S : Event → Prop}

theorem All.left {a b : List Event} (h : All S (a ++ b)) : All S a := fun e he => h e (List.mem_append_left b he)

theorem All.right {a b : List Event} (h : All S (a ++ b)) : All S b := fun e he => h e (List.mem_append_right a he)

theorem All.head {e : Event} {es : List Event} (h : All S (e :: es)) : S e := h e List.mem_cons_self

theorem All.tail {e : Event} {es : List Event} (h : All S (e :: es)) : All S es :=
  fun e he => h e (List.mem_cons_of_mem _ he)

theorem All.flatMap {α : Type} {f : α → List Event} {l : List α} (h : All S (l.flatMap f)) {a : α} (ha : a ∈ l) :
    All S (f a) :=
  fun e he => h e (List.mem_flatMap.2 ⟨a, ha, he⟩)

theorem calls_any (events : List Event) : All (Calls fun _ => True) events := fun _ _ _ _ => trivial

end Event

/-! ## Nodes -/

/-- a node that is made of other nodes alone -/
def Expr.isComposed : Expr → Bool
  | .index .. => true
  | .array _ => true
  | .unary .. => true
  | .binary .. => true
  | .conditional .. => true
  | _ => false

namespace Generation

/-- nodes of a template that are as `S` says are lowered to nodes that are as `Q` says -/
structure Naming.Carries (n : Naming) (S : Event → Prop) (Q : Expr → Prop) : Prop where
  name : ∀ {name p}, S (.expression (.name name p)) → Q (n.resolve name)
  member : ∀ {object name p x}, S (.expression (.member object name p)) → Q (.member x (n.casing.apply name))
  literal : ∀ {raw v}, S (.expression (.literal raw)) → literalValue? raw = some v → Q (.constant v)
  callHelper : ∀ {name p arguments xs}, S (.expression (.call (.name name p) arguments)) →
    S (.expression (.name name p)) → Q (.callHelper name xs)
  callMethod : ∀ {object name p x xs}, S (.expression (.member object name p)) →
    Q (.callMethod x (n.casing.apply name) xs)
  update : ∀ {name p step fixity}, S (.expression (.name name p)) → n.isLocal name = true → Q (.update name step fixity)
  assign : ∀ {name p x}, S (.expression (.name name p)) → n.isLocal name = true → Q (.assign name x)
  composed : ∀ {x : Expr}, x.isComposed = true → Q x

open Event

variable {n : Naming} {S : Event → Prop} {Q : Expr → Prop}

mutual

/-- **The nodes of a lowering are as the nodes of the template say.** -/
theorem every_expression (hc : n.Carries S Q) : ∀ {e : Expression} {x : Expr}, n.expression e = .ok x →
    All S (ofExpression e) → x.Every Q
  | .name name p, x, h, hs => by
    rw [Naming.expression] at h
    cases h
    have hq := hc.name hs.head
    unfold Naming.resolve at hq ⊢
    split_ifs at hq ⊢ <;> exact hq
  | .member object name _, x, h, hs => by
    simp only [Naming.expression, bind_eq_ok] at h
    obtain ⟨o, ho, ⟨⟩⟩ := h
    rw [ofExpression.eq_def] at hs
    exact ⟨hc.member hs.head, every_expression hc ho hs.tail⟩
  | .literal raw, x, h, hs => by
    rw [Naming.expression] at h
    split at h
    · next v hv =>
      cases h
      exact hc.literal hs.head hv
    · cases h
  | .call callee arguments, x, h, hs => by
    simp only [Naming.expression, bind_eq_ok] at h
    obtain ⟨as, has, h⟩ := h
    rw [ofExpression.eq_def] at hs
    have hargs := every_expressions hc has hs.tail.right
    have hcallee := hs.tail.left
    cases callee with
    | name name _ =>
      simp only at h
      split at h
      · cases h
      · cases h
        exact ⟨hc.callHelper hs.head hcallee.head, hargs⟩
    | member object name _ =>
      simp only [bind_eq_ok] at h
      obtain ⟨o, ho, ⟨⟩⟩ := h
      rw [ofExpression.eq_def] at hcallee
      exact ⟨hc.callMethod hcallee.head, every_expression hc ho hcallee.tail, hargs⟩
    | _ => cases h
  | .index target key, x, h, hs => by
    simp only [Naming.expression, bind_eq_ok] at h
    obtain ⟨t, ht, k, hk, ⟨⟩⟩ := h
    rw [ofExpression.eq_def] at hs
    exact ⟨hc.composed rfl, every_expression hc ht hs.tail.left, every_expression hc hk hs.tail.right⟩
  | .array items, x, h, hs => by
    simp only [Naming.expression, bind_eq_ok] at h
    obtain ⟨is, his, ⟨⟩⟩ := h
    rw [ofExpression.eq_def] at hs
    exact ⟨hc.composed rfl, every_expressions hc his hs.tail⟩
  | .unary operator fixity operand, x, h, hs => by
    rw [ofExpression.eq_def] at hs
    cases Naming.lowersUnary_of_ok h with
    | apply _ hx => exact ⟨hc.composed rfl, every_expression hc hx hs.tail⟩
    | update _ ht hl =>
      subst ht
      exact hc.update hs.tail.head hl
  | .binary left operator right, x, h, hs => by
    rw [ofExpression.eq_def] at hs
    cases Naming.lowersBinary_of_ok h with
    | apply _ hx hy =>
      exact ⟨hc.composed rfl, every_expression hc hx hs.tail.left, every_expression hc hy hs.tail.right⟩
    | set _ ht hl hy =>
      subst ht
      exact ⟨hc.assign hs.tail.left.head hl, every_expression hc hy hs.tail.right⟩
    | combine _ _ _ ht hl hy =>
      subst ht
      have hname := hc.name hs.tail.left.head
      rw [Naming.resolve, if_pos hl] at hname
      exact ⟨hc.assign hs.tail.left.head hl, hc.composed rfl, hname, every_expression hc hy hs.tail.right⟩
  | .conditional test whenTrue whenFalse, x, h, hs => by
    simp only [Naming.expression, bind_eq_ok] at h
    obtain ⟨t, ht, w, hw, f, hf, ⟨⟩⟩ := h
    rw [ofExpression.eq_def] at hs
    exact ⟨hc.composed rfl, every_expression hc ht hs.tail.left.left, every_expression hc hw hs.tail.left.right,
      every_expression hc hf hs.tail.right⟩

theorem every_expressions (hc : n.Carries S Q) : ∀ {es : List Expression} {xs : List Expr}, n.expressions es = .ok xs →
    All S (ofExpressions es) → Expr.AllEvery Q xs
  | [], xs, h, _ => by
    rw [Naming.expressions] at h
    cases h
    trivial
  | e :: es, xs, h, hs => by
    simp only [Naming.expressions, bind_eq_ok] at h
    obtain ⟨y, hy, ys, hys, ⟨⟩⟩ := h
    rw [ofExpressions] at hs
    exact ⟨every_expression hc hy hs.left, every_expressions hc hys hs.right⟩

end

end Generation

/-! ## Constants, locals and helpers -/

/-- a single expression as it comes from a lowering: constants are plain, locals are declared, and the helpers that it
calls are as described -/
def Expr.Lowered (isLocal : String → Bool) (C : String → Prop) : Expr → Prop
  | .constant v => v.raws = []
  | .local name => isLocal name = true
  | .update name _ _ => isLocal name = true
  | .assign name _ => isLocal name = true
  | .callHelper name _ => C name
  | _ => True

namespace Generation

open Event

theorem raws_literalValue {raw : String} {v : Value} (h : literalValue? raw = some v) : v.raws = [] := by
  unfold literalValue? at h
  split at h
  · cases h; rfl
  · cases h; rfl
  · cases h; rfl
  · split at h
    · obtain ⟨_, -, rfl⟩ := Option.map_eq_some_iff.1 h; rfl
    · obtain ⟨_, -, rfl⟩ := Option.map_eq_some_iff.1 h; rfl
    · obtain ⟨_, -, rfl⟩ := Option.map_eq_some_iff.1 h; rfl

theorem carries_lowered (n : Naming) (C : String → Prop) : n.Carries (Calls C) (Expr.Lowered n.isLocal C) where
  name _ := by
    unfold Naming.resolve
    split
    · assumption
    split <;> trivial
  member _ := trivial
  literal _ hv := raws_literalValue hv
  callHelper h _ := h _ rfl
  callMethod _ := trivial
  update _ hl := hl
  assign _ hl := hl
  composed {x} h := by cases x <;> trivial

theorem lowered_expression {n : Naming} {C : String → Prop} {e : Expression} {x : Expr} (h : n.expression e = .ok x)
    (hq : All (Calls C) (ofExpression e)) : x.Every (Expr.Lowered n.isLocal C) :=
  every_expression (carries_lowered n C) h hq

end Generation

end TemplateView
