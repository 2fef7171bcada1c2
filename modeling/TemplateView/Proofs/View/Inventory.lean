/-
The inventory of a view is exact. `inventory_exact`: the declared helpers and sections that the analysis lists are the keys
of the tables that the generator made, a template has one node for each entry of these tables, and the names listed as
called are those that the view's programs call, none more and none less.
-/
import TemplateView.Proofs.Generation.Inventory
import TemplateView.Proofs.Grammar.Formed

namespace TemplateView

open Generation

/-! ## Sorted names -/

theorem pairwise_insertName {names : List String} (h : names.Pairwise (· < ·)) (name : String) :
    (insertName name names).Pairwise (· < ·) := by
  induction names with
  | nil => exact List.pairwise_singleton _ _
  | cons n ns ih =>
    obtain ⟨hn, hns⟩ := List.pairwise_cons.1 h
    rw [insertName]
    split
    · next hlt =>
      refine List.pairwise_cons.2 ⟨fun m hm => ?_, h⟩
      rcases List.mem_cons.1 hm with rfl | hm
      · exact hlt
      · exact hlt.trans (hn m hm)
    split
    · exact h
    · next hle hne =>
      refine List.pairwise_cons.2 ⟨fun m hm => ?_, ih hns⟩
      rcases mem_insertName.1 hm with rfl | hm
      · exact lt_of_le_of_ne (not_lt.1 hle) (Ne.symm hne)
      · exact hn m hm

theorem pairwise_sortNames (names : List String) : (sortNames names).Pairwise (· < ·) := by
  induction names with
  | nil => exact List.Pairwise.nil
  | cons n ns ih => exact pairwise_insertName ih n

/-- names are the keys of a table in the same order if they are the same names -/
theorem sortNames_eq_keys {α : Type} {names : List String} {pairs : List (String × α)}
    (h : ∀ name, name ∈ names ↔ name ∈ pairs.map Prod.fst) : sortNames names = (Table.ofList pairs).keys := by
  refine (pairwise_sortNames names).eq_of_mem_iff (Table.pairwise_keys_ofList pairs) fun name => ?_
  rw [mem_sortNames, Table.mem_keys_ofList, h]

/-- a name is repeated if it stands behind an equal one, or stands anywhere and was seen before -/
theorem mem_repeats {seen names : List String} {name : String} :
    name ∈ repeats seen names ↔ (name ∈ names ∧ name ∈ seen) ∨ 2 ≤ names.count name := by
  induction names generalizing seen with
  | nil => simp [repeats]
  | cons n ns ih =>
    rw [repeats]
    by_cases hn : name = n
    · subst hn
      have hone : 1 ≤ ns.count name ↔ name ∈ ns := List.one_le_count_iff
      have htwo : 2 ≤ ns.count name → name ∈ ns := fun h => hone.1 (Nat.le_of_succ_le h)
      split
      · next hs => simp [List.contains_iff_mem.1 hs]
      · next hs =>
        have hs : name ∉ seen := by simpa using hs
        simp only [ih, List.mem_cons_self, hs, and_true, and_false, false_or, List.count_cons_self]
        exact ⟨fun h => Nat.succ_le_succ (hone.2 (h.elim id htwo)), fun h => Or.inl (hone.1 (Nat.le_of_succ_le_succ h))⟩
    · have hm : name ∈ n :: ns ↔ name ∈ ns := by simp [hn]
      rw [hm, List.count_cons_of_ne (Ne.symm hn)]
      split
      · rw [List.mem_cons, or_iff_right hn, ih]
      · rw [ih, List.mem_cons, or_iff_right hn]

/-- where no name is repeated, no name stands twice -/
theorem nodup_of_repeats {names : List String} (h : repeats [] names = []) : names.Nodup := by
  refine List.nodup_iff_count_le_one.2 fun name => ?_
  by_contra hc
  have hm : name ∈ repeats [] names := mem_repeats.2 (Or.inr (Nat.lt_of_not_le hc))
  rw [h] at hm
  cases hm

/-- where no name stands twice, no name is repeated -/
theorem repeats_of_nodup {names : List String} (h : names.Nodup) : repeats [] names = [] := by
  refine List.eq_nil_iff_forall_not_mem.2 fun name hname => ?_
  rcases mem_repeats.1 hname with ⟨-, hseen⟩ | htwice
  · cases hseen
  · exact absurd (List.nodup_iff_count_le_one.1 h name) (Nat.not_le_of_lt htwice)

/-- the same names in any order are sorted alike -/
theorem sortNames_congr {names names' : List String} (h : ∀ name, name ∈ names ↔ name ∈ names') :
    sortNames names = sortNames names' := by
  refine (pairwise_sortNames names).eq_of_mem_iff (pairwise_sortNames names') fun name => ?_
  rw [mem_sortNames, mem_sortNames, h]

/-! ## Declarations -/

/-- the declarations of a template, in the order of its nodes -/
def Template.declarations (t : Template) : List Declared := t.nodes.filterMap declaration?

namespace Template

theorem declarations_perm {t : Template} (h : t.Whole) : t.declarations.Perm (declaredAll t.segments) :=
  (declares_segments t.segments).perm h

/-- what a visit reports of declarations it reports of the nodes that declare something -/
theorem visit_declarations {report : Event → Option String} {keep : Declared → Bool}
    (h : ∀ ev, report ev = ((ev.entered?.bind declaration?).filter keep).map (·.name)) (t : Template) :
    (t.visit fun _ => true).filterMap report = (t.declarations.filter keep).map (·.name) := by
  rw [declarations, nodes, ← Event.entered_segments, Event.entered, List.filterMap_filterMap, List.filter_filterMap,
    List.map_filterMap, funext h]
  rfl

theorem declaredHelper?_eq (ev : Event) :
    Inventory.declaredHelper? ev = ((ev.entered?.bind declaration?).filter (·.isHelper)).map (·.name) := by
  cases ev with
  | enter s => cases s <;> rfl
  | _ => rfl

theorem declaredSection?_eq (ev : Event) :
    Inventory.declaredSection? ev = ((ev.entered?.bind declaration?).filter (!·.isHelper)).map (·.name) := by
  cases ev with
  | enter s => cases s <;> rfl
  | _ => rfl

/-- the nodes of a kind are the declarations of that kind -/
theorem countP_kind {kind : String} (keep : Declared → Bool) (h : ∀ s, (s.kind == kind) = (declaration? s).any keep)
    (t : Template) : t.nodes.countP (·.kind == kind) = (t.declarations.filter keep).length := by
  unfold declarations
  induction t.nodes with
  | nil => rfl
  | cons s ss ih =>
    rw [List.countP_cons, ih, h, List.filterMap_cons]
    cases declaration? s with
    | none => rfl
    | some d => by_cases hd : keep d <;> simp [hd]

/-- pairs of names and declarations of one kind -/
theorem perm_pairs {t : Template} (h : t.Whole) (keep : Declared → Bool) :
    ((t.declarations.filter keep).map (·.name)).Perm
      ((((declaredAll t.segments).filter keep).map fun d => (d.name, d)).map Prod.fst) := by
  rw [List.map_map]
  exact ((declarations_perm h).filter keep).map _

end Template

/-! ## Exactness -/

namespace View

/-- the helpers that a view's programs call: the main one, those of its declared helpers and those of its sections -/
def called (v : View) : List String := v.ops.flatMap fun o => o.exprs.flatMap Expr.called

/-- a template that has programs declares nothing twice -/
theorem nodup_of_generate {casing : Casing} {t : Template} {g : Generated} (hw : t.Whole)
    (h : t.generate casing = .ok g) : (t.helpers.map Prod.fst).Nodup ∧ (t.sections.map Prod.fst).Nodup := by
  obtain ⟨hh, hs⟩ := Template.declares_once h
  have hh := nodup_of_repeats (show repeats [] _ = [] from hh)
  have hs := nodup_of_repeats (show repeats [] _ = [] from hs)
  rw [t.visit_declarations Template.declaredHelper?_eq] at hh
  rw [t.visit_declarations Template.declaredSection?_eq] at hs
  exact ⟨(Template.perm_pairs hw _).nodup_iff.1 hh, (Template.perm_pairs hw _).nodup_iff.1 hs⟩

theorem mem_called {v : View} {name : String} :
    name ∈ v.called ↔ name ∈ Op.called v.program ∨ ∃ f ∈ v.fragments, name ∈ Op.called f.program := by
  simp only [called, ops, Op.called, List.flatMap_append, List.mem_append, List.flatMap_assoc,
    List.mem_flatMap (l := v.fragments)]

variable {v : View} {casing : Casing} {t : Template}

/-- every declaration has its fragment in the view, if nothing is declared twice -/
theorem Of.fragment_mem (h : v.Of casing t) (hh : (t.helpers.map Prod.fst).Nodup) (hs : (t.sections.map Prod.fst).Nodup)
    {d : Declared} (hd : d ∈ declaredAll t.segments) : d.fragment casing ∈ v.fragments := by
  by_cases hk : d.isHelper = true
  · have hp : (d.name, d) ∈ Table.ofList t.helpers :=
      Table.mem_ofList hh (List.mem_map.2 ⟨d, List.mem_filter.2 ⟨hd, hk⟩, rfl⟩)
    have hm : (d.name, Helper.declared (d.fragment casing)) ∈ v.helpers := by
      rw [h.helpers]
      exact List.mem_map.2 ⟨_, hp, rfl⟩
    exact List.mem_append_left _ (List.mem_filterMap.2 ⟨_, hm, rfl⟩)
  · have hp : (d.name, d) ∈ Table.ofList t.sections :=
      Table.mem_ofList hs (List.mem_map.2 ⟨d, List.mem_filter.2 ⟨hd, by simpa using hk⟩, rfl⟩)
    have hm : (d.name, d.fragment casing) ∈ v.sections := by
      rw [h.sections]
      exact List.mem_map.2 ⟨_, hp, rfl⟩
    exact List.mem_append_right _ (List.mem_map.2 ⟨_, hm, rfl⟩)

/-- a view calls what its template calls -/
theorem Of.mem_called_iff (h : v.Of casing t) (hw : t.Whole) (hh : (t.helpers.map Prod.fst).Nodup)
    (hs : (t.sections.map Prod.fst).Nodup) (name : String) :
    name ∈ Event.called (t.visit fun _ => true) ↔ name ∈ v.called := by
  obtain ⟨r, hr, hp⟩ := h.program
  rw [Template.visit, called_sitedAll hr hw name, mem_called, hp, called_program, calledIn, List.mem_flatMap]
  refine or_congr_right ⟨?_, ?_⟩
  · rintro ⟨d, hd, hn⟩
    exact ⟨d.fragment casing, h.fragment_mem hh hs hd, by rwa [Declared.fragment, called_program]⟩
  · rintro ⟨f, hf, hn⟩
    obtain ⟨d, hd, rfl⟩ := h.mem_fragments hf
    exact ⟨d, hd, by rwa [Declared.fragment, called_program] at hn⟩

/-- the helpers that the analysis lists as declared are the keys of the view's table -/
theorem Of.helpersDeclared_eq (h : v.Of casing t) (hw : t.Whole) : v.inventory.helpersDeclared = v.helpers.keys := by
  have hk : v.helpers.keys = (Table.ofList t.helpers).keys := by
    rw [h.helpers, Table.keys, List.map_map]
    rfl
  rw [h.inventory, hk]
  refine sortNames_eq_keys fun name => ?_
  rw [t.visit_declarations Template.declaredHelper?_eq]
  exact (Template.perm_pairs hw _).mem_iff

theorem Of.sectionsDeclared_eq (h : v.Of casing t) (hw : t.Whole) : v.inventory.sectionsDeclared = v.sections.keys := by
  have hk : v.sections.keys = (Table.ofList t.sections).keys := by
    rw [h.sections, Table.keys, List.map_map]
    rfl
  rw [h.inventory, hk]
  refine sortNames_eq_keys fun name => ?_
  rw [t.visit_declarations Template.declaredSection?_eq]
  exact (Template.perm_pairs hw _).mem_iff

/-- the names that the analysis lists as called are those that the view calls -/
theorem Of.mem_helpersCalled_iff (h : v.Of casing t) (hw : t.Whole) (hh : (t.helpers.map Prod.fst).Nodup)
    (hs : (t.sections.map Prod.fst).Nodup) (name : String) : name ∈ v.inventory.helpersCalled ↔ name ∈ v.called := by
  rw [h.inventory, ← h.mem_called_iff hw hh hs name]
  exact mem_sortNames

/-- a compiled view is that of its template, and the template declares nothing twice -/
theorem compile_of_once {options : Options} {source : String} (h : compile options source = .ok v) :
    ∃ t, Template.parse source = .ok t ∧ v.Of options.casing t ∧ t.Whole ∧ (t.helpers.map Prod.fst).Nodup ∧
      (t.sections.map Prod.fst).Nodup := by
  obtain ⟨t, ht, hof, -⟩ := compile_of h
  unfold compile at h
  simp only [ht] at h
  cases hg : t.generate options.casing with
  | error e => rw [hg] at h; cases h
  | ok g => exact ⟨t, ht, hof, Grammar.whole_parse ht, nodup_of_generate (Grammar.whole_parse ht) hg⟩

/-- **The inventory is exact.** For every source that compiles, the helpers and sections that the analysis lists as
declared are the keys of the view's tables; the template has, at all depths together, as many nodes that declare a helper
or a section as these tables have entries; and the names listed as called are those that the view's programs call. -/
theorem inventory_exact {options : Options} {source : String} {view : View} (h : compile options source = .ok view) :
    view.inventory.helpersDeclared = view.helpers.keys ∧ view.inventory.sectionsDeclared = view.sections.keys ∧
    (∃ t, Template.parse source = .ok t ∧ t.nodes.countP (·.kind == "Helper") = view.helpers.length ∧
      t.nodes.countP (·.kind == "Section") = view.sections.length) ∧
    ∀ name, name ∈ view.inventory.helpersCalled ↔ name ∈ view.called := by
  obtain ⟨t, ht, hof, hw, hh, hs⟩ := compile_of_once h
  refine ⟨hof.helpersDeclared_eq hw, hof.sectionsDeclared_eq hw, ⟨t, ht, ?_, ?_⟩, hof.mem_helpersCalled_iff hw hh hs⟩
  · rw [Template.countP_kind (·.isHelper) (by intro s; cases s <;> rfl), hof.helpers, List.length_map,
      Table.length_ofList hh]
    simpa [Template.helpers] using (Template.perm_pairs hw (·.isHelper)).length_eq
  · rw [Template.countP_kind (!·.isHelper) (by intro s; cases s <;> rfl), hof.sections, List.length_map,
      Table.length_ofList hs]
    simpa [Template.sections] using (Template.perm_pairs hw (!·.isHelper)).length_eq

/-- a section in a loop, a helper in the section, calls in an attribute, in a loop's header and in an assignment -/
def directory : String :=
  "@for(var i = from(1); i < 2; i += step(i))\x7b@section side\x7b@helper link(x)\x7b<a href='@url(x)'>@x.name</a>\x7d" ++
    "@link(home)\x7d\x7d@(open ? raw(body) : [close(0)])"

theorem inventory_exact_directory :
    ∃ view, compile .default directory = .ok view ∧ view.helpers.keys = ["link"] ∧ view.sections.keys = ["side"] ∧
      (∃ t, Template.parse directory = .ok t ∧ t.nodes.countP (·.kind == "Helper") = 1) ∧
      ∀ name, name ∈ view.called ↔ name ∈ ["close", "from", "link", "raw", "step", "url"] := by
  obtain ⟨view, h, hv⟩ := exists_ok (x := compile .default directory)
    (p := fun view => decide (view.inventory = ⟨["link"], ["close", "from", "link", "raw", "step", "url"], ["side"], [], []⟩
      ∧ view.helpers.length = 1)) (by decide +kernel)
  obtain ⟨hi, hl⟩ := decide_eq_true_iff.1 hv
  obtain ⟨hh, hs, ⟨t, ht, hn, -⟩, hc⟩ := inventory_exact h
  rw [hi] at hh hs hc
  exact ⟨view, h, hh.symm, hs.symm, ⟨t, ht, hn.trans hl⟩, fun name => (hc name).symm⟩

end View

end TemplateView
