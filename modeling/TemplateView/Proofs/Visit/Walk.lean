/-
What a visitor is told. Enters and exits match like parentheses (`balanced_events`). A visit that passes over segments is the
visit that passes over none, without what stands between the enter of such a segment and its exit (`prune_events`). The
events can be given to the nodes they are of, each by the path to it (`Node.walk`): every node that is not inside a segment
passed over has its events once, around those of the nodes inside it. `visit_matched_and_exact` says all of it for visitors
that pass over kinds of segments.
-/
import Mathlib.Data.List.FinRange
import Mathlib.Data.List.Infix
import Mathlib.Data.List.Pairwise
import TemplateView.Proofs.Visit.Nodes

namespace TemplateView

variable {descend : Segment → Bool}

/-! ## Matching -/

/-- enters and exits match like parentheses, each exit of the segment that was entered -/
inductive Balanced : List Event → Prop
  | nil : Balanced []
  | expression (e : Expression) {events : List Event} : Balanced events → Balanced (.expression e :: events)
  | nest (s : Segment) {inner behind : List Event} :
    Balanced inner → Balanced behind → Balanced (.enter s :: (inner ++ .exit s :: behind))

theorem Balanced.append {front behind : List Event} (hf : Balanced front) (hb : Balanced behind) :
    Balanced (front ++ behind) := by
  induction hf with
  | nil => exact hb
  | expression e _ ih => exact ih.expression e
  | nest s hinner _ _ ih =>
    rw [List.cons_append, List.append_assoc, List.cons_append]
    exact .nest s hinner ih

theorem balanced_flatMap {nodes : List Node} (h : ∀ n ∈ nodes, Balanced (n.events descend)) :
    Balanced (nodes.flatMap (Node.events descend)) := by
  induction nodes with
  | nil => exact .nil
  | cons n nodes ih =>
    rw [List.forall_mem_cons] at h
    exact h.1.append (ih h.2)

/-- **Enters and exits of a visit match.** -/
theorem balanced_events (n : Node) : Balanced (n.events descend) := by
  induction n using Node.induction with
  | step n ih =>
    have hinner : Balanced (if n.descends descend then n.children.flatMap (Node.events descend) else []) := by
      split
      · exact balanced_flatMap ih
      · exact .nil
    rw [Node.events_eq]
    cases n with
    | segment s => exact .nest s hinner .nil
    | template t => exact hinner.append .nil
    | expression e => exact (hinner.append .nil).expression e

/-! ## Passing over -/

/-- the events without those strictly between the enter of an outermost segment that is passed over and the exit that matches;
`depth` counts the segments that are open there, that one included -/
def prune (skip : Segment → Bool) : Nat → List Event → List Event
  | _, [] => []
  | 0, .enter s :: events => .enter s :: prune skip (if skip s then 1 else 0) events
  | 0, event :: events => event :: prune skip 0 events
  | 1, .exit s :: events => .exit s :: prune skip 0 events
  | depth + 2, .exit _ :: events => prune skip (depth + 1) events
  | depth + 1, .enter _ :: events => prune skip (depth + 2) events
  | depth + 1, _ :: events => prune skip (depth + 1) events

variable {skip : Segment → Bool}

/-- between an enter and its exit, what is balanced is left out -/
theorem prune_balanced {events : List Event} (h : Balanced events) (depth : Nat) (behind : List Event) :
    prune skip (depth + 1) (events ++ behind) = prune skip (depth + 1) behind := by
  induction h generalizing depth behind with
  | nil => rfl
  | expression e _ ih => rw [List.cons_append, prune, ih] <;> simp
  | nest s _ _ ihinner ihbehind =>
    rw [List.cons_append, List.append_assoc, List.cons_append, prune, ihinner, prune, ihbehind]

theorem prune_flatMap {nodes : List Node}
    (h : ∀ n ∈ nodes, ∀ behind, prune skip 0 (n.events (fun _ => true) ++ behind) =
      n.events (fun s => !skip s) ++ prune skip 0 behind) (behind : List Event) :
    prune skip 0 (nodes.flatMap (Node.events fun _ => true) ++ behind) =
      nodes.flatMap (Node.events fun s => !skip s) ++ prune skip 0 behind := by
  induction nodes with
  | nil => rfl
  | cons n nodes ih =>
    rw [List.forall_mem_cons] at h
    rw [List.flatMap_cons, List.flatMap_cons, List.append_assoc, List.append_assoc, h.1, ih h.2]

/-- **A visit that passes over segments is the whole visit without what is inside them.** -/
theorem prune_events (skip : Segment → Bool) (n : Node) (behind : List Event) :
    prune skip 0 (n.events (fun _ => true) ++ behind) = n.events (fun s => !skip s) ++ prune skip 0 behind := by
  induction n using Node.induction generalizing behind with
  | step n ih =>
    have hchildren := prune_flatMap ih
    rw [Node.events_eq, Node.events_eq]
    cases n with
    | segment s =>
      have hwhole : Balanced ((Node.segment s).children.flatMap (Node.events fun _ => true)) :=
        balanced_flatMap fun n _ => balanced_events n
      by_cases hs : skip s = true
      · simp only [Node.opening, Node.closing, Node.descends, hs, Bool.not_true, Bool.false_eq_true, if_true, if_false,
          List.cons_append, List.nil_append, List.append_assoc, prune, prune_balanced hwhole]
      · rw [Bool.not_eq_true] at hs
        simp only [Node.opening, Node.closing, Node.descends, hs, Bool.not_false, Bool.false_eq_true, if_true, if_false,
          List.cons_append, List.nil_append, List.append_assoc, prune, hchildren]
    | _ =>
      simp only [Node.opening, Node.closing, Node.descends, if_true, List.cons_append, List.nil_append, List.append_nil,
        prune, hchildren]

/-! ## Paths -/

def Event.isExit : Event → Bool
  | .exit _ => true
  | _ => false

namespace Node

/-- the node at the end of a path, which says at each node which child to take -/
def at? (n : Node) : List Nat → Option Node
  | [] => some n
  | i :: path => n.children[i]?.bind fun c => c.at? path

/-- a place inside a segment that the visitor passes over: such a segment is on the path to it, in front of its end -/
def Hidden (descend : Segment → Bool) (n : Node) (path : List Nat) : Prop :=
  ∃ front s, front <+: path ∧ front ≠ path ∧ n.at? front = some (segment s) ∧ descend s = false

/-- an event of a node that is one step further down -/
def under (i : Nat) (x : List Nat × Event) : List Nat × Event := (i :: x.1, x.2)

/-- the events of a visit, each with the path to the node it is of -/
def walk (descend : Segment → Bool) (n : Node) : List (List Nat × Event) :=
  n.opening.map (Prod.mk []) ++
    ((if n.descends descend then
      (List.finRange n.children.length).flatMap fun i => (walk descend (n.children.get i)).map (under i)
    else []) ++ n.closing.map (Prod.mk []))
termination_by sizeOf n
decreasing_by exact sizeOf_children (List.get_mem _ _)

/-- the walks of the children -/
def walkChildren (descend : Segment → Bool) (n : Node) : List (List Nat × Event) :=
  (List.finRange n.children.length).flatMap fun i => (walk descend (n.children.get i)).map (under i)

theorem walk_eq (n : Node) :
    n.walk descend = n.opening.map (Prod.mk []) ++
      ((if n.descends descend then n.walkChildren descend else []) ++ n.closing.map (Prod.mk [])) := by
  rw [walk]
  rfl

/-- the walk has the events of the visit, in order -/
theorem walk_events (n : Node) : (n.walk descend).map Prod.snd = n.events descend := by
  induction n using Node.induction with
  | step n ih =>
    have hmark : ∀ events : List Event, (events.map (Prod.mk ([] : List Nat))).map Prod.snd = events := fun events => by
      rw [List.map_map]
      exact List.map_id events
    have hchildren : (n.walkChildren descend).map Prod.snd = n.children.flatMap (events descend) := by
      conv_rhs => rw [← List.map_get_finRange n.children, List.flatMap_map]
      rw [walkChildren, List.map_flatMap]
      refine List.flatMap_congr fun i _ => ?_
      rw [List.map_map, ← ih _ (List.get_mem _ i)]
      rfl
    rw [walk_eq, events_eq, List.map_append, List.map_append, hmark, hmark, apply_ite (List.map Prod.snd), hchildren,
      List.map_nil]

theorem mem_walkChildren {n : Node} {x : List Nat × Event} :
    x ∈ n.walkChildren descend ↔ ∃ i c, n.children[i]? = some c ∧ ∃ y ∈ c.walk descend, under i y = x := by
  rw [walkChildren, List.mem_flatMap]
  constructor
  · rintro ⟨i, -, h⟩
    exact ⟨i, _, List.getElem?_eq_getElem i.2, List.mem_map.1 h⟩
  · rintro ⟨i, c, hc, h⟩
    obtain ⟨hi, rfl⟩ := List.getElem?_eq_some_iff.1 hc
    exact ⟨⟨i, hi⟩, List.mem_finRange _, List.mem_map.2 h⟩

/-! ## What is visited -/

theorem not_hidden_nil (n : Node) : ¬ n.Hidden descend [] := by
  rintro ⟨front, s, hprefix, hne, -⟩
  exact hne (List.prefix_nil.1 hprefix)

/-- a place in a child is hidden if its node is passed over or it is hidden in the child -/
theorem hidden_cons {n c : Node} {i : Nat} (hc : n.children[i]? = some c) (path : List Nat) :
    n.Hidden descend (i :: path) ↔ n.descends descend = false ∨ c.Hidden descend path := by
  constructor
  · rintro ⟨front, s, hprefix, hne, hat, hs⟩
    cases front with
    | nil =>
      cases hat
      exact .inl hs
    | cons j front =>
      obtain ⟨rfl, hfront⟩ := List.cons_prefix_cons.1 hprefix
      rw [at?, hc] at hat
      exact .inr ⟨front, s, hfront, fun h => hne (h ▸ rfl), hat, hs⟩
  · rintro (h | ⟨front, s, hprefix, hne, hat, hs⟩)
    · cases n with
      | segment s => exact ⟨[], s, List.nil_prefix, nofun, rfl, h⟩
      | _ => cases h
    · refine ⟨i :: front, s, List.cons_prefix_cons.2 ⟨rfl, hprefix⟩, fun h => hne (List.cons.inj h).2, ?_, hs⟩
      rw [at?, hc]
      exact hat

theorem mem_walk_nil {n : Node} {event : Event} :
    ([], event) ∈ n.walk descend ↔ event ∈ n.opening ++ n.closing := by
  have hmark : ∀ events : List Event, ([], event) ∈ events.map (Prod.mk ([] : List Nat)) ↔ event ∈ events := by
    intro events
    simp only [List.mem_map, Prod.mk.injEq, true_and, exists_eq_right]
  have hinner : ([], event) ∉ if n.descends descend then n.walkChildren descend else [] := by
    split
    · intro h
      obtain ⟨i, c, -, y, -, heq⟩ := mem_walkChildren.1 h
      cases heq
    · exact List.not_mem_nil
  rw [walk_eq, List.mem_append, List.mem_append, hmark, hmark, or_iff_right hinner, List.mem_append]

theorem mem_walk_cons {n : Node} {i : Nat} {path : List Nat} {event : Event} :
    (i :: path, event) ∈ n.walk descend ↔
      n.descends descend = true ∧ ∃ c, n.children[i]? = some c ∧ (path, event) ∈ c.walk descend := by
  have hmark : ∀ events : List Event, (i :: path, event) ∉ events.map (Prod.mk []) := by
    intro events h
    obtain ⟨_, -, heq⟩ := List.mem_map.1 h
    cases heq
  have hinner : (i :: path, event) ∈ n.walkChildren descend ↔
      ∃ c, n.children[i]? = some c ∧ (path, event) ∈ c.walk descend := by
    rw [mem_walkChildren]
    constructor
    · rintro ⟨j, c, hc, y, hy, heq⟩
      cases heq
      exact ⟨c, hc, hy⟩
    · rintro ⟨c, hc, h⟩
      exact ⟨i, c, hc, _, h, rfl⟩
  rw [walk_eq, List.mem_append, List.mem_append, or_iff_right (hmark _), or_iff_left (hmark _)]
  split
  · next hd => rw [hinner, and_iff_right hd]
  · next hd => exact ⟨nofun, fun h => absurd h.1 hd⟩

/-- **Every node that is not hidden has its events in the walk, at its path, and there are no others.** -/
theorem mem_walk {n : Node} {path : List Nat} {event : Event} :
    (path, event) ∈ n.walk descend ↔
      ∃ m, n.at? path = some m ∧ ¬ n.Hidden descend path ∧ event ∈ m.opening ++ m.closing := by
  induction path generalizing n with
  | nil =>
    rw [mem_walk_nil]
    constructor
    · exact fun h => ⟨n, rfl, not_hidden_nil n, h⟩
    · rintro ⟨m, hm, -, h⟩
      cases hm
      exact h
  | cons i path ih =>
    rw [mem_walk_cons]
    constructor
    · rintro ⟨hd, c, hc, h⟩
      obtain ⟨m, hm, hh, h⟩ := ih.1 h
      refine ⟨m, ?_, fun hidden => ?_, h⟩
      · rw [at?, hc]
        exact hm
      · rcases (hidden_cons hc path).1 hidden with hn | hn
        · exact absurd (hd.symm.trans hn) (by decide)
        · exact hh hn
    · rintro ⟨m, hm, hh, h⟩
      obtain ⟨c, hc, hm⟩ := Option.bind_eq_some_iff.1 hm
      rw [hidden_cons hc, not_or, Bool.not_eq_false] at hh
      exact ⟨hh.1, c, hc, ih.2 ⟨m, hm, hh.2, h⟩⟩

/-! ## Order -/

/-- an event that may come before another: it is not of a node, or inside one, that is opened then or has been closed -/
def Before (x y : List Nat × Event) : Prop :=
  (y.2.isExit = false → ¬ y.1 <+: x.1) ∧ (x.2.isExit = true → ¬ x.1 <+: y.1)

theorem Before.ne {x y : List Nat × Event} (h : Before x y) : x ≠ y := by
  rintro rfl
  obtain ⟨hopening, hclosing⟩ := h
  cases h : x.2.isExit with
  | false => exact hopening h List.prefix_rfl
  | true => exact hclosing h List.prefix_rfl

theorem isExit_of_mem_opening {n : Node} {event : Event} (h : event ∈ n.opening) : event.isExit = false := by
  cases n with
  | template t => cases h
  | _ => cases List.mem_singleton.1 h; rfl

theorem isExit_of_mem_closing {n : Node} {event : Event} (h : event ∈ n.closing) : event.isExit = true := by
  cases n with
  | segment s => cases List.mem_singleton.1 h; rfl
  | _ => cases h

/-- a node has at most one event on either side -/
theorem pairwise_marks {R : List Nat × Event → List Nat × Event → Prop} (n : Node) :
    (n.opening.map (Prod.mk [])).Pairwise R ∧ (n.closing.map (Prod.mk [])).Pairwise R := by
  cases n <;> simp [opening, closing]

theorem before_walkChildren {n : Node} (h : ∀ c ∈ n.children, (c.walk descend).Pairwise Before) :
    (n.walkChildren descend).Pairwise Before := by
  refine List.pairwise_flatMap.2 ⟨fun i _ => ?_, (List.pairwise_lt_finRange _).imp fun hlt x hx y hy => ?_⟩
  · refine List.pairwise_map.2 ((h _ (List.get_mem _ i)).imp fun hxy => ?_)
    simp only [Before, under, List.cons_prefix_cons, true_and]
    exact hxy
  · -- events of two children: neither path goes on from the other
    obtain ⟨x, -, rfl⟩ := List.mem_map.1 hx
    obtain ⟨y, -, rfl⟩ := List.mem_map.1 hy
    exact ⟨fun _ hp => absurd (List.cons_prefix_cons.1 hp).1 (Nat.ne_of_gt hlt),
      fun _ hp => absurd (List.cons_prefix_cons.1 hp).1 (Nat.ne_of_lt hlt)⟩

/-- **The events of a node stand around those of the nodes inside it.** -/
theorem before_walk (n : Node) : (n.walk descend).Pairwise Before := by
  induction n using Node.induction with
  | step n ih =>
    have hinner : (if n.descends descend then n.walkChildren descend else []).Pairwise Before := by
      split
      · exact before_walkChildren ih
      · exact .nil
    have hpath : ∀ x ∈ if n.descends descend then n.walkChildren descend else [], x.1 ≠ [] := by
      intro x hx
      split at hx
      · obtain ⟨i, c, -, y, -, rfl⟩ := mem_walkChildren.1 hx
        exact List.cons_ne_nil i y.1
      · cases hx
    obtain ⟨hopen, hclose⟩ := n.pairwise_marks
    rw [walk_eq]
    refine List.pairwise_append.2 ⟨hopen, List.pairwise_append.2 ⟨hinner, hclose, fun x hx y hy => ?_⟩, fun x hx y hy => ?_⟩
    · -- what is inside comes before the closing
      obtain ⟨event, hevent, rfl⟩ := List.mem_map.1 hy
      have hexit := isExit_of_mem_closing hevent
      exact ⟨fun h => absurd (hexit.symm.trans h) (by decide), fun _ hp => hpath x hx (List.prefix_nil.1 hp)⟩
    · -- the opening comes before all else
      obtain ⟨event, hevent, rfl⟩ := List.mem_map.1 hx
      have hexit := isExit_of_mem_opening hevent
      refine ⟨fun h hp => ?_, fun h => absurd (hexit.symm.trans h) (by decide)⟩
      rcases List.mem_append.1 hy with hy | hy
      · exact hpath y hy (List.prefix_nil.1 hp)
      · obtain ⟨other, hother, rfl⟩ := List.mem_map.1 hy
        exact absurd ((isExit_of_mem_closing hother).symm.trans h) (by decide)

end Node

/-! ## Visits of templates -/

/-- the events of a visit with the path to the node that each is of: the nodes that are not inside a segment passed over have
theirs once, and there are no others; those of a node stand around those of the nodes inside it -/
structure Template.Attributed (t : Template) (descend : Segment → Bool) (walk : List (List Nat × Event)) : Prop where
  events : walk.map Prod.snd = t.visit descend
  nodes : ∀ path event, (path, event) ∈ walk ↔ ∃ n, (Node.template t).at? path = some n ∧
    ¬ (Node.template t).Hidden descend path ∧ event ∈ n.opening ++ n.closing
  once : walk.Nodup
  order : walk.Pairwise Node.Before

theorem attributed_walk (t : Template) : t.Attributed descend ((Node.template t).walk descend) where
  events := Node.walk_events _
  nodes _ _ := Node.mem_walk
  once := (Node.before_walk _).imp Node.Before.ne
  order := Node.before_walk _

/-- **Visits match, miss nothing and pass over exactly what they should.** When a visitor passes over segments of some kinds,
its enters and exits match; every node that is not inside such a segment has its events once, an expression before those
inside it; and these are the events of a visit that passes over nothing, without those strictly between the enter of an
outermost segment of such a kind and its exit. -/
theorem visit_matched_and_exact (skip : String → Bool) (t : Template) :
    Balanced (t.visit fun s => !skip s.kind) ∧ (∃ walk, t.Attributed (fun s => !skip s.kind) walk) ∧
    t.visit (fun s => !skip s.kind) = prune (fun s => skip s.kind) 0 (t.visit fun _ => true) := by
  refine ⟨balanced_events (.template t), ⟨_, attributed_walk t⟩, ?_⟩
  have h := prune_events (fun s => skip s.kind) (.template t) []
  rw [List.append_nil, prune, List.append_nil] at h
  exact h.symm

example : ((Template.mk [.block [.action (.literal "1")], .action (.literal "2")]).visit fun s =>
    s.kind != "Block").map Event.text = ["enter Block", "exit Block", "enter Expression", "expression Literal 2",
      "exit Expression"] := by
  decide

end TemplateView
