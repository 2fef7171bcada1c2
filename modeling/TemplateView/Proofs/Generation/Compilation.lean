/-
What a compiled view holds. `View.Of` ties a view to its template: its program, its helpers and its sections are the
direct lowering of the template and of the bodies declared in it. `compile_of` shows it for every compiled source, and
`lowered_declared` that every declared body could be lowered.
-/
import TemplateView.Proofs.Generation.Assembly
import TemplateView.Proofs.Program.Parts
import TemplateView.Proofs.Table

namespace TemplateView

namespace Generation

/-! ## Lowered declarations -/

/-- a computation has a result exactly if all its steps have -/
theorem bind_eq_ok {ε α β : Type} {x : Except ε α} {f : α → Except ε β} {b : β} :
    (x >>= f) = .ok b ↔ ∃ a, x = .ok a ∧ f a = .ok b := by
  cases x with
  | ok a => exact ⟨fun h => ⟨a, rfl, h⟩, by rintro ⟨_, ⟨⟩, h⟩; exact h⟩
  | error e => exact ⟨nofun, by rintro ⟨_, h, _⟩; cases h⟩

/-- a result of which a test holds -/
theorem exists_ok {ε α : Type} {x : Except ε α} {p : α → Bool} (h : x.toOption.any p = true) :
    ∃ a, x = .ok a ∧ p a = true := by
  cases x with
  | ok a => exact ⟨a, rfl, h⟩
  | error e => cases h

/-- a site keeps the names and the expression it was lowered from -/
theorem of_site {casing : Casing} {names : Names} {source : Expression} {s : Site casing}
    (h : site casing names source = .ok s) :
    s.names = names ∧ (names.naming casing).expression source = .ok s.expr := by
  unfold site at h
  split at h
  · next e he => cases h; exact ⟨rfl, he⟩
  · cases h

/-- a declared body has operations -/
def Declared.Lowered (casing : Casing) (d : Declared) : Prop :=
  ∃ r, sitedAll casing (.ofLocals d.parameters) d.body = .ok r

mutual

/-- where a segment is lowered, so are the bodies declared in it -/
theorem lowered_declared {casing : Casing} {names : Names} {r : List (SitedOp casing) × Names} :
    ∀ {s : Segment}, sited casing names s = .ok r → ∀ d ∈ declared s, d.Lowered casing
  | .element _ children _, h => by
    simp only [sited, bind_eq_ok] at h
    obtain ⟨_, -, _, h, -⟩ := h
    rw [declared]
    exact lowered_declaredAll h
  | .block ss, h => by
    rw [sited] at h
    rw [declared]
    exact lowered_declaredAll h
  | .branch _ ss otherwise, h => by
    simp only [sited, bind_eq_ok] at h
    obtain ⟨_, -, _, h₁, _, h₂, -⟩ := h
    intro d hd
    rw [declared, List.mem_append] at hd
    exact hd.elim (lowered_declaredAll h₁ d) (lowered_declaredAlternative h₂ d)
  | .loop _ _ _ ss, h => by
    simp only [sited, bind_eq_ok] at h
    obtain ⟨_, -, _, -, _, -, _, h, -⟩ := h
    rw [declared]
    exact lowered_declaredAll h
  | .each _ _ ss, h => by
    simp only [sited, bind_eq_ok] at h
    obtain ⟨_, -, _, h, -⟩ := h
    rw [declared]
    exact lowered_declaredAll h
  | .helper name parameters ss, h => by
    simp only [sited, bind_eq_ok] at h
    obtain ⟨r', h, -⟩ := h
    intro d hd
    rw [declared, List.mem_append, List.mem_singleton] at hd
    rcases hd with hd | rfl
    · exact lowered_declaredAll h d hd
    · exact ⟨r', h⟩
  | .namedSection name ss, h => by
    simp only [sited, bind_eq_ok] at h
    obtain ⟨r', h, -⟩ := h
    intro d hd
    rw [declared, List.mem_append, List.mem_singleton] at hd
    rcases hd with hd | rfl
    · exact lowered_declaredAll h d hd
    · exact ⟨r', h⟩
  | .text _, _ => nofun
  | .emptyElement .., _ => nofun
  | .htmlComment .., _ => nofun
  | .docType .., _ => nofun
  | .inline _, _ => nofun
  | .declaration _, _ => nofun
  | .action _, _ => nofun
  | .comment _, _ => nofun

theorem lowered_declaredAll {casing : Casing} {names : Names} {r : List (SitedOp casing) × Names} :
    ∀ {ss : List Segment}, sitedAll casing names ss = .ok r → ∀ d ∈ declaredAll ss, d.Lowered casing
  | [], _ => nofun
  | s :: ss, h => by
    simp only [sitedAll, bind_eq_ok] at h
    obtain ⟨_, h₁, _, h₂, -⟩ := h
    intro d hd
    rw [declaredAll, List.mem_append] at hd
    exact hd.elim (lowered_declared h₁ d) (lowered_declaredAll h₂ d)

theorem lowered_declaredAlternative {casing : Casing} {names : Names} {r : List (SitedOp casing)} :
    ∀ {a : Alternative}, sitedAlternative casing names a = .ok r → ∀ d ∈ declaredAlternative a, d.Lowered casing
  | .nothing, _ => nofun
  | .elseBranch _ ss otherwise, h | .both _ ss otherwise _, h => by
    simp only [sitedAlternative, bind_eq_ok] at h
    obtain ⟨_, -, _, h₁, _, h₂, -⟩ := h
    intro d hd
    rw [declaredAlternative, List.mem_append] at hd
    exact hd.elim (lowered_declaredAll h₁ d) (lowered_declaredAlternative h₂ d)
  | .elseBody ss, h => by
    simp only [sitedAlternative, bind_eq_ok] at h
    obtain ⟨_, h, -⟩ := h
    rw [declaredAlternative]
    exact lowered_declaredAll h

end

theorem enter_eq (casing : Casing) (ds : List Declared) :
    enter casing [] ds = (Table.ofList (ds.map fun d => (d.name, d))).map fun p => (p.1, p.2.fragment casing) := by
  rw [Table.map_ofList (Declared.fragment casing), List.map_map, Table.ofList, List.foldl_map]
  rfl

end Generation

open Generation

/-! ## Generated programs -/

/-- the programs are the direct lowering of a template, its main operations being those given -/
structure Generated.Of (g : Generated) {casing : Casing} (t : Template) (ops : List (SitedOp casing)) : Prop where
  program : g.program = SitedOp.program ops
  helpers : g.helpers = (Table.ofList t.helpers).map fun p => (p.1, p.2.fragment casing)
  sections : g.sections = (Table.ofList t.sections).map fun p => (p.1, p.2.fragment casing)

namespace Template

variable {casing : Casing} {t : Template}

/-- what is declared twice has no programs -/
theorem declares_once {g : Generated} (h : t.generate casing = .ok g) :
    t.inventory.duplicateHelpers = [] ∧ t.inventory.duplicateSections = [] := by
  unfold generate at h
  simp only at h
  split at h
  · cases h
  · cases h
  · next hh hs => exact ⟨hh, hs⟩

/-- where nothing is declared twice, the generator works as the direct lowering does, or fails for the same cause -/
theorem generate_follows (casing : Casing) (hh : t.inventory.duplicateHelpers = [])
    (hs : t.inventory.duplicateSections = []) :
    match sitedAll casing .empty t.segments with
    | .ok r => ∃ g, t.generate casing = .ok g ∧ g.Of t r.1
    | .error c => ∃ e, t.generate casing = .error e ∧ e.cause = c := by
  have hf := segments_follows casing .start t.segments
  unfold Lowers Follows at hf
  rw [show Progress.start.builder.names = .empty from rfl] at hf
  have hg : t.generate casing =
      (Generation.segments casing t.segments .start).map fun x => ⟨x.2.builder.finish, x.2.helpers, x.2.sections⟩ := by
    unfold generate
    simp only [hh, hs]
    show (Generation.segments casing t.segments .start >>= _) = _
    cases Generation.segments casing t.segments .start <;> rfl
  rw [hg]
  cases hr : sitedAll casing .empty t.segments with
  | error c =>
    cases hm : Generation.segments casing t.segments .start with
    | error e => rw [hr, hm] at hf; exact ⟨e, rfl, hf⟩
    | ok x => rw [hr, hm] at hf; exact hf.elim
  | ok r =>
    cases hm : Generation.segments casing t.segments .start with
    | error e => rw [hr, hm] at hf; exact hf.elim
    | ok x =>
      rw [hr, hm] at hf
      refine ⟨_, rfl, ?_, ?_, ?_⟩
      · show x.2.builder.finish = _
        rw [Builder.finish_eq_written hf.outer, hf.written]
        rfl
      · show x.2.helpers = _
        rw [hf.helpers]
        exact enter_eq casing _
      · show x.2.sections = _
        rw [hf.sections]
        exact enter_eq casing _

/-- the programs of a template are its direct lowering -/
theorem generate_eq {g : Generated} (h : t.generate casing = .ok g) :
    ∃ r : List (SitedOp casing) × Names, sitedAll casing .empty t.segments = .ok r ∧ g.Of t r.1 := by
  obtain ⟨hh, hs⟩ := declares_once h
  have hf := generate_follows casing hh hs
  cases hr : sitedAll casing .empty t.segments with
  | error c =>
    rw [hr] at hf
    obtain ⟨e, he, -⟩ := hf
    cases he.symm.trans h
  | ok r =>
    rw [hr] at hf
    obtain ⟨g', hg, hof⟩ := hf
    cases hg.symm.trans h
    exact ⟨r, rfl, hof⟩

end Template

/-- a view of a template, lowered under a casing -/
structure View.Of (v : View) (casing : Casing) (t : Template) : Prop where
  program : ∃ r : List (SitedOp casing) × Names, sitedAll casing .empty t.segments = .ok r ∧
    v.program = SitedOp.program r.1
  helpers : v.helpers = (Table.ofList t.helpers).map fun p => (p.1, .declared (p.2.fragment casing))
  sections : v.sections = (Table.ofList t.sections).map fun p => (p.1, p.2.fragment casing)
  inventory : v.inventory = t.inventory

/-- the view of generated programs is that of their template -/
theorem Generated.Of.view {g : Generated} {casing : Casing} {t : Template} {r : List (SitedOp casing) × Names}
    (h : g.Of t r.1) (hr : sitedAll casing .empty t.segments = .ok r) (maxCallDepth : Nat) :
    (g.view t.inventory maxCallDepth).Of casing t where
  program := ⟨r, hr, h.program⟩
  helpers := by
    have hm : (g.view t.inventory maxCallDepth).helpers = g.helpers.map fun p => (p.1, Helper.declared p.2) := rfl
    rw [hm, h.helpers, List.map_map]
    rfl
  sections := h.sections
  inventory := rfl

/-- a source is compiled to the view of its template -/
theorem compile_of {options : Options} {source : String} {v : View} (h : compile options source = .ok v) :
    ∃ t, Template.parse source = .ok t ∧ v.Of options.casing t ∧ v.maxCallDepth = options.maxCallDepth := by
  unfold compile at h
  split at h
  · cases h
  · next t ht =>
    split at h
    · cases h
    · next g hg =>
      cases h
      obtain ⟨r, hr, hof⟩ := Template.generate_eq hg
      exact ⟨t, ht, hof.view hr _, rfl⟩

/-- a source has a view where it has a template that can be lowered -/
theorem compile_toOption (options : Options) (source : String) :
    (compile options source).toOption = (Template.parse source).toOption.bind fun t =>
      (t.generate options.casing).toOption.map (·.view t.inventory options.maxCallDepth) := by
  unfold compile
  cases Template.parse source with
  | error e => rfl
  | ok t =>
    simp only [Except.toOption, Option.bind_some]
    cases t.generate options.casing <;> rfl

/-- every body that the template declares has operations -/
theorem View.Of.lowered {v : View} {casing : Casing} {t : Template} (h : v.Of casing t) :
    ∀ d ∈ declaredAll t.segments, d.Lowered casing :=
  let ⟨_, hr, _⟩ := h.program
  lowered_declaredAll hr

/-- the fragments of a view are those of its template's declarations -/
theorem View.Of.mem_fragments {v : View} {casing : Casing} {t : Template} (h : v.Of casing t) {f : Fragment}
    (hf : f ∈ v.fragments) : ∃ d ∈ declaredAll t.segments, f = d.fragment casing := by
  have key : ∀ {p : String × Declared} {keep : Declared → Bool},
      p ∈ Table.ofList (((declaredAll t.segments).filter keep).map fun d => (d.name, d)) →
      p.2 ∈ declaredAll t.segments := by
    intro p keep hp
    obtain ⟨d, hd, rfl⟩ := List.mem_map.1 (Table.mem_of_mem_ofList hp)
    exact (List.mem_filter.1 hd).1
  rcases List.mem_append.1 hf with hf | hf
  · obtain ⟨q, hq, hf⟩ := List.mem_filterMap.1 hf
    rw [h.helpers] at hq
    obtain ⟨p, hp, rfl⟩ := List.mem_map.1 hq
    cases hf
    exact ⟨p.2, key hp, rfl⟩
  · obtain ⟨q, hq, rfl⟩ := List.mem_map.1 hf
    rw [h.sections] at hq
    obtain ⟨p, hp, rfl⟩ := List.mem_map.1 hq
    exact ⟨p.2, key hp, rfl⟩

/-- a compiled view knows no helper of a host -/
theorem View.Of.declared {v : View} {casing : Casing} {t : Template} (h : v.Of casing t) {name : String} {x : Helper}
    (hx : v.helpers.get? name = some x) : ∃ f ∈ v.fragments, x = .declared f := by
  have hm := Table.mem_of_get? hx
  rw [h.helpers] at hm
  obtain ⟨p, hp, he⟩ := List.mem_map.1 hm
  cases he
  refine ⟨p.2.fragment casing, List.mem_append_left _ (List.mem_filterMap.2 ⟨_, Table.mem_of_get? hx, rfl⟩), rfl⟩

end TemplateView
