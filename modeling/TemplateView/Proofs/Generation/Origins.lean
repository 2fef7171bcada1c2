/-
Where the expressions of a program come from. Each is the lowering of an expression of the template, so
what follows for lowerings from the nodes that they were lowered from (`Entails`) holds of all expressions of a view that was
compiled from a template with such nodes, those of its helpers and sections included (`View.Of.holds`).
-/
import TemplateView.Proofs.Generation.Lowered
import TemplateView.Proofs.Visit

namespace TemplateView

open Event

namespace Generation

/-- what follows for a lowering from the nodes that it was lowered from -/
def Entails (casing : Casing) (S : Event → Prop) (P : Expr → Prop) : Prop :=
  ∀ {names : Names} {source : Expression} {e : Expr}, (names.naming casing).expression source = .ok e →
    All S (ofExpression source) → P e

/-! ## Operations -/

/-- the expressions of the operations, those in bodies included, are as described -/
def Hold (P : Expr → Prop) (ops : List Op) : Prop := ∀ o ∈ Op.allParts ops, ∀ e ∈ o.exprs, P e

variable {casing : Casing} {S : Event → Prop} {P : Expr → Prop}

theorem hold_nil : Hold P [] := nofun

theorem allParts_append (ops more : List Op) : Op.allParts (ops ++ more) = Op.allParts ops ++ Op.allParts more := by
  induction ops with
  | nil => rfl
  | cons op ops ih => simp [Op.allParts, ih]

theorem hold_append {ops more : List Op} : Hold P (ops ++ more) ↔ Hold P ops ∧ Hold P more := by
  simp only [Hold, allParts_append, List.mem_append, or_imp, forall_and]

theorem hold_singleton {op : Op} : Hold P [op] ↔ ∀ o ∈ op.parts, ∀ e ∈ o.exprs, P e := by
  simp [Hold, Op.allParts]

theorem hold_text (s : String) : Hold P [.text s] := by
  simp [hold_singleton, Op.parts, Op.exprs]

/-- where operations are put behind others, only texts change -/
theorem hold_pack {ops more : List Op} (h : Hold P ops) (hm : Hold P more) : Hold P (Op.pack ops more) := by
  induction more generalizing ops with
  | nil => exact h
  | cons op more ih =>
    have hop : Hold P [op] ∧ Hold P more := hold_append.1 hm
    refine ih ?_ hop.2
    unfold Op.add
    split
    · next s =>
      split
      · exact h
      unfold Builder.appendText
      split
      · next last _ =>
        obtain ⟨init, rfl⟩ := List.getLast?_eq_some_iff.1 ‹_›
        rw [List.dropLast_concat]
        exact hold_append.2 ⟨(hold_append.1 h).1, hold_text _⟩
      · exact hold_append.2 ⟨h, hold_text s⟩
    · exact hold_append.2 ⟨h, hop.1⟩

theorem hold_site (hl : Entails casing S P) {names : Names} {source : Expression} {s : Site casing}
    (h : site casing names source = .ok s) (hs : All S (ofExpression source)) : P s.expr :=
  hl (of_site h).2 hs

theorem hold_siteOption (hl : Entails casing S P) {names : Names} {source : Option Expression}
    {s : Option (Site casing)} (h : siteOption casing names source = .ok s) (hs : All S (ofOption source)) :
    ∀ e ∈ (s.map Site.expr).toList, P e := by
  cases source with
  | none => cases h; nofun
  | some e =>
    simp only [siteOption, bind_eq_ok] at h
    obtain ⟨st, hst, ⟨⟩⟩ := h
    intro x hx
    rw [Option.map_some, Option.toList_some, List.mem_singleton] at hx
    rw [hx]
    exact hold_site hl hst hs

theorem hold_branch {test : Site casing} {whenTrue whenFalse : List (SitedOp casing)}
    (ht : P test.expr) (hw : Hold P (SitedOp.eraseAll whenTrue))
    (hf : Hold P (SitedOp.eraseAll whenFalse)) :
    Hold P (SitedOp.eraseAll [.branch test whenTrue whenFalse]) := by
  refine hold_singleton.2 fun o ho => ?_
  rw [SitedOp.erase, Op.parts] at ho
  rcases List.mem_cons.1 ho with rfl | ho
  · intro e he
    rw [List.mem_singleton.1 he]
    exact ht
  · rcases List.mem_append.1 ho with ho | ho
    · exact hold_pack hold_nil hw o ho
    · exact hold_pack hold_nil hf o ho

/-! ## Tags -/

theorem hold_part (hl : Entails casing S P) {names : Names} {part : ValuePart} {op : SitedOp casing}
    (h : sitedPart casing names part = .ok op)
    (hs : ∀ i, part = .inline i → All S (ofExpression i.expression)) : Hold P [op.erase] := by
  cases part with
  | text s => cases h; simp [hold_singleton, Op.parts, Op.exprs, SitedOp.erase]
  | inline i =>
    simp only [sitedPart, bind_eq_ok] at h
    obtain ⟨st, hst, ⟨⟩⟩ := h
    simpa [hold_singleton, Op.parts, Op.exprs, SitedOp.erase] using hold_site hl hst (hs i rfl)

theorem hold_parts (hl : Entails casing S P) {names : Names} {parts : List ValuePart} {ops : List (SitedOp casing)}
    (h : sitedParts casing names parts = .ok ops)
    (hs : ∀ part ∈ parts, ∀ i, part = .inline i → All S (ofExpression i.expression)) :
    Hold P (SitedOp.eraseAll ops) := by
  induction parts generalizing ops with
  | nil => cases h; exact hold_nil
  | cons part parts ih =>
    simp only [sitedParts, bind_eq_ok] at h
    obtain ⟨op, hop, more, hmore, ⟨⟩⟩ := h
    exact hold_append.2 ⟨hold_part hl hop (hs part List.mem_cons_self),
      ih hmore fun p hp => hs p (List.mem_cons_of_mem part hp)⟩

theorem hold_attribute (hl : Entails casing S P) {names : Names} {a : Attribute} {ops : List (SitedOp casing)}
    (h : sitedAttribute casing names a = .ok ops)
    (hs : ∀ part ∈ a.values, ∀ i, part = .inline i → All S (ofExpression i.expression)) :
    Hold P (SitedOp.eraseAll ops) := by
  unfold sitedAttribute at h
  split at h
  · cases h; exact hold_text _
  · next quote _ =>
    split at h
    · simp only [bind_eq_ok] at h
      obtain ⟨parts, hparts, ⟨⟩⟩ := h
      have hp := hold_parts hl hparts hs
      rw [show SitedOp.eraseAll (.beginAttribute (opening a quote) :: (parts ++ [.endAttribute (String.singleton quote)]))
        = [.beginAttribute (opening a quote)] ++ (SitedOp.eraseAll parts ++ [.endAttribute (String.singleton quote)])
        by simp [SitedOp.eraseAll, SitedOp.erase, eraseAll_append]]
      refine hold_append.2 ⟨?_, hold_append.2 ⟨hp, ?_⟩⟩
      · simp [hold_singleton, Op.parts, Op.exprs]
      · simp [hold_singleton, Op.parts, Op.exprs]
    · cases h; exact hold_text _

theorem hold_attributes (hl : Entails casing S P) {names : Names} {as : List Attribute} {ops : List (SitedOp casing)}
    (h : sitedAttributes casing names as = .ok ops)
    (hs : ∀ a ∈ as, ∀ part ∈ a.values, ∀ i, part = .inline i → All S (ofExpression i.expression)) :
    Hold P (SitedOp.eraseAll ops) := by
  induction as generalizing ops with
  | nil => cases h; exact hold_nil
  | cons a as ih =>
    simp only [sitedAttributes, bind_eq_ok] at h
    obtain ⟨ops₁, h₁, ops₂, h₂, ⟨⟩⟩ := h
    rw [eraseAll_append]
    exact hold_append.2 ⟨hold_attribute hl h₁ (hs a List.mem_cons_self),
      ih h₂ fun b hb => hs b (List.mem_cons_of_mem a hb)⟩

theorem hold_tag (hl : Entails casing S P) {names : Names} {tag : Tag} {ops : List (SitedOp casing)}
    (h : sitedTag casing names tag = .ok ops) (hs : All S (ofTag tag)) : Hold P (SitedOp.eraseAll ops) := by
  simp only [sitedTag, bind_eq_ok] at h
  obtain ⟨as, has, ⟨⟩⟩ := h
  refine hold_append.2 ⟨hold_text _, ?_⟩
  show Hold P (SitedOp.eraseAll (as ++ [.text tag.beforeEnd]))
  rw [eraseAll_append]
  refine hold_append.2 ⟨hold_attributes hl has ?_, hold_text _⟩
  intro a ha part hp i hi
  have h₁ := (hs.flatMap ha).flatMap hp
  rwa [hi] at h₁

/-! ## Segments -/

theorem all_inside {s : Segment} (h : All S (ofSegment (fun _ => true) s)) : All S (inside s) := by
  rw [ofSegment_eq] at h
  exact h.tail.left

mutual

/-- the programs of segments hold what follows for lowerings from the nodes of the segments -/
theorem hold_sited (hl : Entails casing S P) {names : Names} {r : List (SitedOp casing) × Names} :
    ∀ {s : Segment}, sited casing names s = .ok r → All S (ofSegment (fun _ => true) s) →
      Hold P (SitedOp.eraseAll r.1)
  | .text _, h, _ => by rw [sited] at h; cases h; exact hold_text _
  | .element tag children close, h, hs => by
    simp only [sited, bind_eq_ok] at h
    obtain ⟨head, hhead, ⟨ops, after⟩, hops, ⟨⟩⟩ := h
    have hs := all_inside hs
    have h₁ := hold_tag hl hhead hs.left
    have h₂ := hold_sitedAll hl hops hs.right
    show Hold P (SitedOp.eraseAll (head ++ .text ">" :: (ops ++ [.text (endTagText close)])))
    rw [eraseAll_append]
    refine hold_append.2 ⟨h₁, hold_append.2 ⟨hold_text ">", ?_⟩⟩
    show Hold P (SitedOp.eraseAll (ops ++ [.text (endTagText close)]))
    rw [eraseAll_append]
    exact hold_append.2 ⟨h₂, hold_text _⟩
  | .emptyElement tag closing, h, hs => by
    simp only [sited, bind_eq_ok] at h
    obtain ⟨head, hhead, ⟨⟩⟩ := h
    show Hold P (SitedOp.eraseAll (head ++ [.text (closingText closing)]))
    rw [eraseAll_append]
    exact hold_append.2 ⟨hold_tag hl hhead (all_inside hs), hold_text _⟩
  | .htmlComment .., h, _ => by rw [sited] at h; cases h; exact hold_text _
  | .docType .., h, _ => by rw [sited] at h; cases h; exact hold_text _
  | .inline i, h, hs => by
    simp only [sited, bind_eq_ok] at h
    obtain ⟨value, hv, ⟨⟩⟩ := h
    refine hold_append.2 ⟨hold_text i.leading, hold_singleton.2 ?_⟩
    simpa [Op.parts, Op.exprs, SitedOp.erase] using hold_site hl hv (all_inside hs)
  | .block ss, h, hs => by
    rw [sited] at h
    exact hold_sitedAll hl h (all_inside hs)
  | .declaration d, h, hs => by
    simp only [sited, bind_eq_ok] at h
    obtain ⟨init, hi, ⟨⟩⟩ := h
    refine hold_singleton.2 ?_
    simpa [Op.parts, Op.exprs, SitedOp.erase] using hold_siteOption hl hi (all_inside hs)
  | .branch test ss otherwise, h, hs => by
    simp only [sited, bind_eq_ok] at h
    obtain ⟨t, ht, ⟨w, _⟩, hw, f, hf, ⟨⟩⟩ := h
    have hs := all_inside hs
    exact hold_branch (hold_site hl ht hs.left.left) (hold_sitedAll hl hw hs.left.right)
      (hold_sitedAlternative hl hf hs.right)
  | .loop counter condition iteration ss, h, hs => by
    simp only [sited, bind_eq_ok] at h
    obtain ⟨init, hi, c, hc, it, hit, ⟨ops, _⟩, hops, ⟨⟩⟩ := h
    have hs := all_inside hs
    have hb := hold_pack hold_nil (hold_sitedAll hl hops hs.right)
    refine hold_singleton.2 fun o ho => ?_
    rw [SitedOp.erase, Op.parts] at ho
    rcases List.mem_cons.1 ho with rfl | ho
    · intro e he
      simp only [Op.exprs, List.mem_append, List.mem_cons, List.not_mem_nil, or_false] at he
      rcases he with he | rfl | rfl
      · exact hold_siteOption hl hi hs.left.left.left e he
      · exact hold_site hl hc hs.left.left.right
      · exact hold_site hl hit hs.left.right
    · exact hb o ho
  | .each item collection ss, h, hs => by
    simp only [sited, bind_eq_ok] at h
    obtain ⟨c, hc, ⟨ops, _⟩, hops, ⟨⟩⟩ := h
    have hs := all_inside hs
    have hb := hold_pack hold_nil (hold_sitedAll hl hops hs.right)
    refine hold_singleton.2 fun o ho => ?_
    rw [SitedOp.erase, Op.parts] at ho
    rcases List.mem_cons.1 ho with rfl | ho
    · intro e he
      rw [List.mem_singleton.1 he]
      exact hold_site hl hc hs.left
    · exact hb o ho
  | .action a, h, hs => by
    simp only [sited, bind_eq_ok] at h
    obtain ⟨value, hv, ⟨⟩⟩ := h
    refine hold_singleton.2 ?_
    simpa [Op.parts, Op.exprs, SitedOp.erase] using hold_site hl hv (all_inside hs)
  | .helper .., h, _ => by
    simp only [sited, bind_eq_ok] at h
    obtain ⟨_, -, ⟨⟩⟩ := h
    exact hold_nil
  | .namedSection .., h, _ => by
    simp only [sited, bind_eq_ok] at h
    obtain ⟨_, -, ⟨⟩⟩ := h
    exact hold_nil
  | .comment _, h, _ => by rw [sited] at h; cases h; exact hold_nil

theorem hold_sitedAll (hl : Entails casing S P) {names : Names} {r : List (SitedOp casing) × Names} :
    ∀ {ss : List Segment}, sitedAll casing names ss = .ok r → All S (ofSegments (fun _ => true) ss) →
      Hold P (SitedOp.eraseAll r.1)
  | [], h, _ => by rw [sitedAll] at h; cases h; exact hold_nil
  | s :: ss, h, hs => by
    simp only [sitedAll, bind_eq_ok] at h
    obtain ⟨⟨ops, _⟩, h₁, ⟨more, _⟩, h₂, ⟨⟩⟩ := h
    rw [ofSegments] at hs
    rw [eraseAll_append]
    exact hold_append.2 ⟨hold_sited hl h₁ hs.left, hold_sitedAll hl h₂ hs.right⟩

theorem hold_sitedAlternative (hl : Entails casing S P) {names : Names} {ops : List (SitedOp casing)} :
    ∀ {a : Alternative}, sitedAlternative casing names a = .ok ops → All S (ofAlternative (fun _ => true) a) →
      Hold P (SitedOp.eraseAll ops)
  | .nothing, h, _ => by rw [sitedAlternative] at h; cases h; exact hold_nil
  | .elseBranch test ss otherwise, h, hs => by
    simp only [sitedAlternative, bind_eq_ok] at h
    obtain ⟨t, ht, ⟨w, _⟩, hw, f, hf, ⟨⟩⟩ := h
    rw [ofAlternative] at hs
    exact hold_branch (hold_site hl ht hs.left.left) (hold_sitedAll hl hw hs.left.right)
      (hold_sitedAlternative hl hf hs.right)
  | .elseBody ss, h, hs => by
    simp only [sitedAlternative, bind_eq_ok] at h
    obtain ⟨⟨w, _⟩, hw, ⟨⟩⟩ := h
    rw [ofAlternative] at hs
    exact hold_sitedAll hl hw hs
  | .both test ss otherwise _, h, hs => by
    simp only [sitedAlternative, bind_eq_ok] at h
    obtain ⟨t, ht, ⟨w, _⟩, hw, f, hf, ⟨⟩⟩ := h
    rw [ofAlternative] at hs
    have hs := hs.left
    exact hold_branch (hold_site hl ht hs.left.left) (hold_sitedAll hl hw hs.left.right)
      (hold_sitedAlternative hl hf hs.right)

end

mutual

/-- the nodes of a declared body are nodes of the segments -/
theorem all_declared : ∀ {s : Segment}, All S (ofSegment (fun _ => true) s) → ∀ d ∈ declared s,
    All S (ofSegments (fun _ => true) d.body)
  | .element _ children _, h, d, hd => by
    rw [declared] at hd
    exact all_declaredAll (all_inside h).right d hd
  | .block ss, h, d, hd => by
    rw [declared] at hd
    exact all_declaredAll (all_inside h) d hd
  | .branch _ ss otherwise, h, d, hd => by
    have h := all_inside h
    rw [declared, List.mem_append] at hd
    exact hd.elim (all_declaredAll h.left.right d) (all_declaredAlternative h.right d)
  | .loop _ _ _ ss, h, d, hd => by
    rw [declared] at hd
    exact all_declaredAll (all_inside h).right d hd
  | .each _ _ ss, h, d, hd => by
    rw [declared] at hd
    exact all_declaredAll (all_inside h).right d hd
  | .helper _ _ ss, h, d, hd => by
    rw [declared, List.mem_append, List.mem_singleton] at hd
    rcases hd with hd | rfl
    · exact all_declaredAll (all_inside h) d hd
    · exact all_inside h
  | .namedSection _ ss, h, d, hd => by
    rw [declared, List.mem_append, List.mem_singleton] at hd
    rcases hd with hd | rfl
    · exact all_declaredAll (all_inside h) d hd
    · exact all_inside h
  | .text _, _, _, hd => nomatch hd
  | .emptyElement .., _, _, hd => nomatch hd
  | .htmlComment .., _, _, hd => nomatch hd
  | .docType .., _, _, hd => nomatch hd
  | .inline _, _, _, hd => nomatch hd
  | .declaration _, _, _, hd => nomatch hd
  | .action _, _, _, hd => nomatch hd
  | .comment _, _, _, hd => nomatch hd

theorem all_declaredAll : ∀ {ss : List Segment}, All S (ofSegments (fun _ => true) ss) → ∀ d ∈ declaredAll ss,
    All S (ofSegments (fun _ => true) d.body)
  | [], _, _, hd => nomatch hd
  | s :: ss, h, d, hd => by
    rw [ofSegments] at h
    rw [declaredAll, List.mem_append] at hd
    exact hd.elim (all_declared h.left d) (all_declaredAll h.right d)

theorem all_declaredAlternative : ∀ {a : Alternative}, All S (ofAlternative (fun _ => true) a) →
    ∀ d ∈ declaredAlternative a, All S (ofSegments (fun _ => true) d.body)
  | .nothing, _, _, hd => nomatch hd
  | .elseBranch _ ss otherwise, h, d, hd => by
    rw [ofAlternative] at h
    rw [declaredAlternative, List.mem_append] at hd
    exact hd.elim (all_declaredAll h.left.right d) (all_declaredAlternative h.right d)
  | .elseBody ss, h, d, hd => by
    rw [ofAlternative] at h
    rw [declaredAlternative] at hd
    exact all_declaredAll h d hd
  | .both _ ss otherwise _, h, d, hd => by
    rw [ofAlternative] at h
    have h := h.left
    rw [declaredAlternative, List.mem_append] at hd
    exact hd.elim (all_declaredAll h.left.right d) (all_declaredAlternative h.right d)

end

end Generation

open Generation

/-- **What follows for lowerings from the nodes of a template holds of all expressions of its view.** -/
theorem View.Of.holds {v : View} {casing : Casing} {t : Template} (h : v.Of casing t) {S : Event → Prop}
    {P : Expr → Prop} (hl : Entails casing S P) (hs : All S (ofSegments (fun _ => true) t.segments)) :
    ∀ o ∈ v.ops, ∀ e ∈ o.exprs, P e := by
  intro o ho
  rcases List.mem_append.1 ho with ho | ho
  · obtain ⟨r, hr, hp⟩ := h.program
    rw [hp] at ho
    exact hold_pack hold_nil (hold_sitedAll hl hr hs) o ho
  · obtain ⟨f, hf, ho⟩ := List.mem_flatMap.1 ho
    obtain ⟨d, hd, rfl⟩ := h.mem_fragments hf
    obtain ⟨r, hr⟩ := h.lowered d hd
    rw [fragment_of_sited hr] at ho
    exact hold_pack hold_nil (hold_sitedAll hl hr (all_declaredAll hs d hd)) o ho

end TemplateView
