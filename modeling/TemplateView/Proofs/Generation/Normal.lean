/-
The normal form of programs. In a body, no text is empty and none stands beside another one, and the operations of
attributes stand in groups: one that opens an attribute, its parts, and one that closes it, with nothing between them.
`normalForm_sited` says that lowered segments have it in every body, whatever they consist of, once they are packed.
-/
import Mathlib.Data.List.Chain
import TemplateView.Proofs.Generation.Woven

namespace TemplateView

namespace Op

/-! ## Bodies -/

def isText : Op → Bool
  | .text _ => true
  | _ => false

/-- one of the three operations that attributes are made of -/
def isAttribute : Op → Bool
  | .beginAttribute _ => true
  | .attributePart _ => true
  | .endAttribute _ => true
  | _ => false

/-- the bodies of a control structure -/
def bodies : Op → List (List Op)
  | .branch _ whenTrue whenFalse => [whenTrue, whenFalse]
  | .loop _ _ _ _ body => [body]
  | .each _ _ body => [body]
  | _ => []

/-- a program itself, or a body in it, at whatever depth -/
inductive BodyOf (program : List Op) : List Op → Prop
  | self : BodyOf program program
  | inner {body inner : List Op} {op : Op} : BodyOf program body → op ∈ body → inner ∈ op.bodies → BodyOf program inner

/-- a body of a program is the program, or a body of a body of one of its operations -/
theorem BodyOf.cases_outer {program body : List Op} (h : BodyOf program body) :
    body = program ∨ ∃ op ∈ program, ∃ b ∈ op.bodies, BodyOf b body := by
  induction h with
  | self => exact .inl rfl
  | @inner body inner op _ hop hin ih =>
    rcases ih with rfl | ⟨op', hop', b, hb, hbody⟩
    · exact .inr ⟨op, hop, inner, hin, .self⟩
    · exact .inr ⟨op', hop', b, hb, hbody.inner hop hin⟩

/-! ## Groups -/

/-- the operations of one attribute -/
def group (opening : String) (parts : List AttributePart) (closing : String) : List Op :=
  .beginAttribute opening :: (parts.map .attributePart ++ [.endAttribute closing])

/-- operations of attributes occur in whole groups only, each with a part at least -/
inductive Grouped : List Op → Prop
  | nil : Grouped []
  | other {op : Op} {ops : List Op} : op.isAttribute = false → Grouped ops → Grouped (op :: ops)
  | group (opening closing : String) {parts : List AttributePart} {ops : List Op} :
    parts ≠ [] → Grouped ops → Grouped (Op.group opening parts closing ++ ops)

theorem Grouped.append {ops more : List Op} (h : Grouped ops) (hm : Grouped more) : Grouped (ops ++ more) := by
  induction h with
  | nil => exact hm
  | other hop _ ih => exact .other hop ih
  | group opening closing hp _ ih => rw [List.append_assoc]; exact .group opening closing hp ih

theorem grouped_group (opening closing : String) {parts : List AttributePart} (hp : parts ≠ []) :
    Grouped (group opening parts closing) := by
  have h := Grouped.group opening closing hp .nil
  rwa [List.append_nil] at h

theorem not_isText_of_mem_group {opening closing : String} {parts : List AttributePart} {op : Op}
    (h : op ∈ group opening parts closing) : op.isText = false ∧ op.bodies = [] := by
  simp only [group, List.mem_cons, List.mem_append, List.mem_map, List.not_mem_nil, or_false] at h
  rcases h with rfl | ⟨_, _, rfl⟩ | rfl <;> exact ⟨rfl, rfl⟩

/-! ## The normal form -/

/-- a body in normal form -/
structure Normal (body : List Op) : Prop where
  /-- no text is empty -/
  filled : .text "" ∉ body
  /-- no text stands beside a text -/
  apart : body.IsChain fun a b => ¬ (a.isText = true ∧ b.isText = true)
  /-- operations of attributes occur in whole groups -/
  grouped : Grouped body

/-- every body of a program is in normal form -/
def NormalForm (program : List Op) : Prop := ∀ body, BodyOf program body → Normal body

theorem normal_nil : Normal [] := ⟨nofun, .nil, .nil⟩

theorem Normal.append {ops more : List Op} (h : Normal ops) (hm : Normal more)
    (hb : ∀ a ∈ ops.getLast?, ∀ b ∈ more.head?, ¬ (a.isText = true ∧ b.isText = true)) : Normal (ops ++ more) where
  filled hx := (List.mem_append.1 hx).elim h.filled hm.filled
  apart := List.isChain_append.2 ⟨h.apart, hm.apart, hb⟩
  grouped := h.grouped.append hm.grouped

theorem normal_of_no_text {ops : List Op} (hn : ∀ op ∈ ops, op.isText = false) (hg : Grouped ops) : Normal ops where
  filled hx := by cases hn _ hx
  apart := by
    refine List.Pairwise.isChain (List.pairwise_of_forall_mem_list fun a ha b _ hab => ?_)
    rw [hn a ha] at hab
    cases hab.1
  grouped := hg

theorem normal_textOps (s : String) : Normal (textOps s) := by
  unfold textOps
  split
  · exact normal_nil
  · next h =>
    refine ⟨fun hx => h ?_, .singleton _, .other rfl .nil⟩
    cases List.mem_singleton.1 hx
    rfl

/-- text behind operations that end in no text -/
theorem Normal.text {done : List Op} (h : Normal done) (hc : Closed done) (s : String) : Normal (done ++ textOps s) := by
  refine h.append (normal_textOps s) fun a ha b _ hab => ?_
  cases a with
  | text t => exact hc t ha
  | _ => cases hab.1

/-- operations without text behind any others -/
theorem Normal.more {ops more : List Op} (h : Normal ops) (hn : ∀ op ∈ more, op.isText = false) (hg : Grouped more) :
    Normal (ops ++ more) := by
  refine h.append (normal_of_no_text hn hg) fun a _ b hb hab => ?_
  rw [hn b (List.mem_of_mem_head? hb)] at hab
  cases hab.2

theorem closed_append {ops more : List Op} (hne : more ≠ []) (hn : ∀ op ∈ more, op.isText = false) :
    Closed (ops ++ more) := by
  intro s hs
  rw [List.getLast?_append_of_ne_nil _ hne] at hs
  cases hn _ (List.mem_of_getLast? hs)

/-! ## Packing -/

theorem add_of_no_text (ops : List Op) {op : Op} (h : op.isText = false) : Op.add ops op = ops ++ [op] := by
  cases op <;> first | rfl | cases h

/-- operations without text are put behind others as they are -/
theorem pack_of_no_text {more : List Op} (hn : ∀ op ∈ more, op.isText = false) (ops : List Op) :
    Op.pack ops more = ops ++ more := by
  induction more generalizing ops with
  | nil => simp [pack]
  | cons op more ih =>
    rw [pack, List.foldl_cons, ← pack, add_of_no_text ops (hn op List.mem_cons_self),
      ih (fun o ho => hn o (List.mem_cons_of_mem op ho))]
    simp

theorem pack_append (ops first more : List Op) : Op.pack ops (first ++ more) = Op.pack (Op.pack ops first) more := by
  rw [pack, pack, pack, List.foldl_append]

/-- **Packing gives the normal form.** Behind what is in normal form and does not end in text, with some text that more
text may join, grouped operations are packed into what is in normal form. -/
theorem normal_pack {more : List Op} (hg : Grouped more) :
    ∀ (done : List Op) (s : String), Normal done → Closed done → Normal (Op.pack (done ++ textOps s) more) := by
  induction hg with
  | nil => exact fun done s h hc => h.text hc s
  | @other op ops hop _ ih =>
    intro done s h hc
    rw [pack, List.foldl_cons, ← pack]
    cases ht : op.isText with
    | true =>
      cases op with
      | text t => rw [add_text hc]; exact ih done (s ++ t) h hc
      | _ => cases ht
    | false =>
      have hn : ∀ o ∈ [op], o.isText = false := by simpa using ht
      have hd := ih (done ++ textOps s ++ [op]) "" ((h.text hc s).more hn (.other hop .nil))
        (closed_append (List.cons_ne_nil _ _) hn)
      rw [add_of_no_text _ ht]
      simpa [textOps] using hd
  | @group opening closing parts ops hp _ ih =>
    intro done s h hc
    have hn : ∀ o ∈ Op.group opening parts closing, o.isText = false := fun o ho => (not_isText_of_mem_group ho).1
    have hd := ih (done ++ textOps s ++ Op.group opening parts closing) ""
      ((h.text hc s).more hn (grouped_group opening closing hp)) (closed_append (List.cons_ne_nil _ _) hn)
    rw [pack_append, pack_of_no_text hn]
    simpa [textOps] using hd

/-- what has been packed is one of the operations, or text -/
theorem mem_pack {more : List Op} {op : Op} : ∀ {ops : List Op}, op ∈ Op.pack ops more →
    op ∈ ops ∨ op ∈ more ∨ op.isText = true := by
  induction more with
  | nil => exact fun h => .inl h
  | cons o more ih =>
    intro ops h
    rw [pack, List.foldl_cons, ← pack] at h
    rcases ih h with h | h | h
    · cases ho : o.isText with
      | true =>
        cases o with
        | text s =>
          rw [add] at h
          split at h
          · exact .inl h
          · unfold Builder.appendText at h
            split at h
            · rcases List.mem_append.1 h with h | h
              · exact .inl ((List.dropLast_sublist ops).mem h)
              · rw [List.mem_singleton.1 h]; exact .inr (.inr rfl)
            · rcases List.mem_append.1 h with h | h
              · exact .inl h
              · rw [List.mem_singleton.1 h]; exact .inr (.inr rfl)
        | _ => cases ho
      | false =>
        rw [add_of_no_text ops ho] at h
        rcases List.mem_append.1 h with h | h
        · exact .inl h
        · rw [List.mem_singleton.1 h]; exact .inr (.inl List.mem_cons_self)
    · exact .inr (.inl (List.mem_cons_of_mem o h))
    · exact .inr (.inr h)

/-! ## Orderly operations -/

/-- operations before they are packed: attributes are in groups, and the bodies have their normal form -/
structure Orderly (ops : List Op) : Prop where
  grouped : Grouped ops
  bodies : ∀ op ∈ ops, ∀ b ∈ op.bodies, NormalForm b

theorem orderly_nil : Orderly [] := ⟨.nil, nofun⟩

theorem Orderly.append {ops more : List Op} (h : Orderly ops) (hm : Orderly more) : Orderly (ops ++ more) where
  grouped := h.grouped.append hm.grouped
  bodies op hop := (List.mem_append.1 hop).elim (h.bodies op) (hm.bodies op)

theorem orderly_singleton {op : Op} (h : op.isAttribute = false) (hb : ∀ b ∈ op.bodies, NormalForm b) :
    Orderly [op] where
  grouped := .other h .nil
  bodies o ho := by rw [List.mem_singleton.1 ho]; exact hb

theorem orderly_text (s : String) : Orderly [.text s] := orderly_singleton rfl nofun

theorem orderly_group (opening closing : String) {parts : List AttributePart} (hp : parts ≠ []) :
    Orderly (group opening parts closing) where
  grouped := grouped_group opening closing hp
  bodies op hop b hb := by rw [(not_isText_of_mem_group hop).2] at hb; cases hb

/-- orderly operations are packed into a program in normal form -/
theorem Orderly.normalForm {ops : List Op} (h : Orderly ops) : NormalForm (Op.pack [] ops) := by
  intro body hbody
  rcases hbody.cases_outer with rfl | ⟨op, hop, b, hb, hbody⟩
  · exact normal_pack h.grouped [] "" normal_nil nofun
  · rcases mem_pack hop with hop | hop | hop
    · cases hop
    · exact h.bodies op hop b hb body hbody
    · cases op with
      | text s => cases hb
      | _ => cases hop

end Op

namespace Generation

open Op

variable {casing : Casing} {names : Names}

/-! ## Tags -/

/-- the pieces of a value are lowered to a part each -/
theorem erase_sitedParts {parts : List ValuePart} {ops : List (SitedOp casing)}
    (h : sitedParts casing names parts = .ok ops) :
    ∃ lowered : List AttributePart, SitedOp.eraseAll ops = lowered.map .attributePart ∧
      lowered.length = parts.length := by
  induction parts generalizing ops with
  | nil => cases h; exact ⟨[], rfl, rfl⟩
  | cons part parts ih =>
    simp only [sitedParts, bind_eq_ok] at h
    obtain ⟨op, hop, more, hmore, ⟨⟩⟩ := h
    obtain ⟨lowered, hl, hlen⟩ := ih hmore
    have ho : ∃ a, op.erase = .attributePart a := by
      cases part with
      | text s => cases hop; exact ⟨_, rfl⟩
      | inline i =>
        simp only [sitedPart, bind_eq_ok] at hop
        obtain ⟨value, -, ⟨⟩⟩ := hop
        exact ⟨_, rfl⟩
    obtain ⟨a, ha⟩ := ho
    exact ⟨a :: lowered, by rw [SitedOp.eraseAll, ha, hl, List.map_cons], by simp [hlen]⟩

theorem orderly_attribute {a : Attribute} {ops : List (SitedOp casing)} (h : sitedAttribute casing names a = .ok ops) :
    Orderly (SitedOp.eraseAll ops) := by
  unfold sitedAttribute at h
  split at h
  · cases h; exact orderly_text _
  · next quote hq =>
    split at h
    · next hi =>
      simp only [bind_eq_ok] at h
      obtain ⟨parts, hparts, ⟨⟩⟩ := h
      obtain ⟨lowered, hl, hlen⟩ := erase_sitedParts hparts
      have hne : lowered ≠ [] := by
        rintro rfl
        rw [List.eq_nil_of_length_eq_zero hlen.symm] at hi
        cases hi
      have hg := orderly_group (opening a quote) (String.singleton quote) hne
      simpa [SitedOp.eraseAll, SitedOp.erase, eraseAll_append, hl, group] using hg
    · cases h; exact orderly_text _

theorem orderly_attributes {as : List Attribute} {ops : List (SitedOp casing)}
    (h : sitedAttributes casing names as = .ok ops) : Orderly (SitedOp.eraseAll ops) := by
  induction as generalizing ops with
  | nil => cases h; exact orderly_nil
  | cons a as ih =>
    simp only [sitedAttributes, bind_eq_ok] at h
    obtain ⟨ops₁, h₁, ops₂, h₂, ⟨⟩⟩ := h
    rw [eraseAll_append]
    exact (orderly_attribute h₁).append (ih h₂)

theorem orderly_tag {tag : Tag} {ops : List (SitedOp casing)} (h : sitedTag casing names tag = .ok ops) :
    Orderly (SitedOp.eraseAll ops) := by
  simp only [sitedTag, bind_eq_ok] at h
  obtain ⟨as, has, ⟨⟩⟩ := h
  rw [SitedOp.eraseAll, eraseAll_append]
  exact (orderly_text _).append ((orderly_attributes has).append (orderly_text _))

/-! ## Segments -/

theorem orderly_branch (test : Site casing) {whenTrue whenFalse : List (SitedOp casing)}
    (hw : Orderly (SitedOp.eraseAll whenTrue)) (hf : Orderly (SitedOp.eraseAll whenFalse)) :
    Orderly (SitedOp.eraseAll [.branch test whenTrue whenFalse]) := by
  refine orderly_singleton rfl fun b hb => ?_
  simp only [SitedOp.erase, bodies, List.mem_cons, List.not_mem_nil, or_false] at hb
  rcases hb with rfl | rfl
  · exact hw.normalForm
  · exact hf.normalForm

mutual

/-- a segment is lowered to orderly operations -/
theorem orderly_sited {names : Names} {r : List (SitedOp casing) × Names} :
    ∀ {s : Segment}, sited casing names s = .ok r → Orderly (SitedOp.eraseAll r.1)
  | .text _, h => by rw [sited] at h; cases h; exact orderly_text _
  | .element tag children close, h => by
    simp only [sited, bind_eq_ok] at h
    obtain ⟨head, hhead, ⟨ops, after⟩, hops, ⟨⟩⟩ := h
    rw [eraseAll_append, SitedOp.eraseAll, eraseAll_append]
    exact (orderly_tag hhead).append ((orderly_text ">").append ((orderly_sitedAll hops).append (orderly_text _)))
  | .emptyElement tag closing, h => by
    simp only [sited, bind_eq_ok] at h
    obtain ⟨head, hhead, ⟨⟩⟩ := h
    rw [eraseAll_append]
    exact (orderly_tag hhead).append (orderly_text _)
  | .htmlComment .., h => by rw [sited] at h; cases h; exact orderly_text _
  | .docType .., h => by rw [sited] at h; cases h; exact orderly_text _
  | .inline i, h => by
    simp only [sited, bind_eq_ok] at h
    obtain ⟨value, -, ⟨⟩⟩ := h
    exact (orderly_text i.leading).append (orderly_singleton rfl nofun)
  | .block ss, h => by rw [sited] at h; exact orderly_sitedAll h
  | .declaration d, h => by
    simp only [sited, bind_eq_ok] at h
    obtain ⟨init, -, ⟨⟩⟩ := h
    exact orderly_singleton rfl nofun
  | .branch test ss otherwise, h => by
    simp only [sited, bind_eq_ok] at h
    obtain ⟨t, -, ⟨w, _⟩, hw, f, hf, ⟨⟩⟩ := h
    exact orderly_branch t (orderly_sitedAll hw) (orderly_sitedAlternative hf)
  | .loop counter condition iteration ss, h => by
    simp only [sited, bind_eq_ok] at h
    obtain ⟨init, -, c, -, it, -, ⟨ops, _⟩, hops, ⟨⟩⟩ := h
    refine orderly_singleton rfl fun b hb => ?_
    rw [List.mem_singleton.1 hb]
    exact (orderly_sitedAll hops).normalForm
  | .each item collection ss, h => by
    simp only [sited, bind_eq_ok] at h
    obtain ⟨c, -, ⟨ops, _⟩, hops, ⟨⟩⟩ := h
    refine orderly_singleton rfl fun b hb => ?_
    rw [List.mem_singleton.1 hb]
    exact (orderly_sitedAll hops).normalForm
  | .action a, h => by
    simp only [sited, bind_eq_ok] at h
    obtain ⟨value, -, ⟨⟩⟩ := h
    exact orderly_singleton rfl nofun
  | .helper .., h => by
    simp only [sited, bind_eq_ok] at h
    obtain ⟨_, -, ⟨⟩⟩ := h
    exact orderly_nil
  | .namedSection .., h => by
    simp only [sited, bind_eq_ok] at h
    obtain ⟨_, -, ⟨⟩⟩ := h
    exact orderly_nil
  | .comment _, h => by rw [sited] at h; cases h; exact orderly_nil

theorem orderly_sitedAll {names : Names} {r : List (SitedOp casing) × Names} :
    ∀ {ss : List Segment}, sitedAll casing names ss = .ok r → Orderly (SitedOp.eraseAll r.1)
  | [], h => by rw [sitedAll] at h; cases h; exact orderly_nil
  | s :: ss, h => by
    simp only [sitedAll, bind_eq_ok] at h
    obtain ⟨⟨ops, _⟩, h₁, ⟨more, _⟩, h₂, ⟨⟩⟩ := h
    rw [eraseAll_append]
    exact (orderly_sited h₁).append (orderly_sitedAll h₂)

theorem orderly_sitedAlternative {names : Names} {ops : List (SitedOp casing)} :
    ∀ {a : Alternative}, sitedAlternative casing names a = .ok ops → Orderly (SitedOp.eraseAll ops)
  | .nothing, h => by rw [sitedAlternative] at h; cases h; exact orderly_nil
  | .elseBranch test ss otherwise, h | .both test ss otherwise _, h => by
    simp only [sitedAlternative, bind_eq_ok] at h
    obtain ⟨t, -, ⟨w, _⟩, hw, f, hf, ⟨⟩⟩ := h
    exact orderly_branch t (orderly_sitedAll hw) (orderly_sitedAlternative hf)
  | .elseBody ss, h => by
    simp only [sitedAlternative, bind_eq_ok] at h
    obtain ⟨⟨ops, _⟩, hops, ⟨⟩⟩ := h
    exact orderly_sitedAll hops

end

/-- **Lowered segments have a normal form.** -/
theorem normalForm_sited {ss : List Segment} {r : List (SitedOp casing) × Names}
    (h : sitedAll casing names ss = .ok r) : NormalForm (SitedOp.program r.1) :=
  (orderly_sitedAll h).normalForm

end Generation

end TemplateView
