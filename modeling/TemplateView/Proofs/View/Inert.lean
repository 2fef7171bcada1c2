/-
Declarations and comments can stand anywhere. A node that declares a helper or a section, or is a comment, can be taken
out of a template wherever it stands: the main program stays the same, and of the fragments only those that the node
declares are missing. At the end of the template it does the same as in its old place (`declarations_inert`).

With one exception: a declaration in an `else` body that stands beside a further `if`. No template that was parsed has
such a body (`whole_parse`), and generation passes over it. The declaration is listed in the inventory but has no fragment,
until it is moved to a place that generation reaches (`declarations_move_lopsided`).
-/
import TemplateView.Proofs.Generation.Inert

namespace TemplateView

open Generation

namespace Generation

/-! ## Tables of entries -/

/-- the names and fragments of entries, of helpers or of sections -/
def fragmentsOf (helpers : Bool) (es : List (Bool × String × Fragment)) : List (String × Fragment) :=
  (es.filter (·.1 == helpers)).map Prod.snd

variable {casing : Casing}

theorem fragmentsOf_entries (helpers : Bool) (ds : List Declared) :
    fragmentsOf helpers (entries casing ds) =
      (ds.filter (·.isHelper == helpers)).map fun d => (d.name, d.fragment casing) := by
  rw [fragmentsOf, entries, List.filter_map, List.map_map]
  rfl

theorem fragmentsOf_append (helpers : Bool) (es fs : List (Bool × String × Fragment)) :
    fragmentsOf helpers (es ++ fs) = fragmentsOf helpers es ++ fragmentsOf helpers fs := by
  rw [fragmentsOf, List.filter_append, List.map_append]
  rfl

theorem fragmentsOf_perm {es fs : List (Bool × String × Fragment)} (h : es.Perm fs) (helpers : Bool) :
    (fragmentsOf helpers es).Perm (fragmentsOf helpers fs) :=
  (h.filter _).map _

/-- the table of helpers or of sections that a template's declarations make -/
theorem ofList_fragments (helpers : Bool) (ds : List Declared) :
    (Table.ofList ((ds.filter (·.isHelper == helpers)).map fun d => (d.name, d))).map
        (fun p => (p.1, p.2.fragment casing)) = Table.ofList (fragmentsOf helpers (entries casing ds)) := by
  rw [Table.map_ofList (Declared.fragment casing), List.map_map, fragmentsOf_entries]
  rfl

/-! ## Declared names -/

/-- the names that some nodes declare, of helpers or of sections -/
def declaredNames (helpers : Bool) (nodes : List Segment) : List String :=
  ((nodes.filterMap declaration?).filter (·.isHelper == helpers)).map (·.name)

/-- what an event declares, a helper or a section -/
def declaredName? (helpers : Bool) : Event → Option String :=
  if helpers then Inventory.declaredHelper? else Inventory.declaredSection?

theorem outer_declaredName? (helpers : Bool) : Outer (declaredName? helpers) := by
  intro n reached s s' h
  cases helpers <;> cases h <;> exact ⟨rfl, rfl⟩

theorem outer_calledName? : Outer Inventory.calledName? := fun _ => ⟨rfl, rfl⟩

/-- a visit reports the names that the nodes declare, which it enters -/
theorem filterMap_declaredName? (helpers : Bool) (events : List Event) :
    events.filterMap (declaredName? helpers) = declaredNames helpers (Event.entered events) := by
  rw [declaredNames, Event.entered, List.filterMap_filterMap, List.filter_filterMap, List.map_filterMap]
  congr 1
  funext ev
  cases helpers with
  | true => simpa [declaredName?] using Template.declaredHelper?_eq ev
  | false => simpa [declaredName?] using Template.declaredSection?_eq ev

theorem declaredNames_segments (helpers : Bool) (ss : List Segment) :
    (Event.ofSegments (fun _ => true) ss).filterMap (declaredName? helpers) =
      declaredNames helpers (Segment.nodesAll ss) := by
  rw [filterMap_declaredName?, Event.entered_segments]

/-- a node that is taken out declares what is declared besides the rest -/
theorem declaredNames_takenOutAll {n : Segment} {reached : Bool} {ss rest : List Segment}
    (h : n.TakenOutAll reached ss rest) (helpers : Bool) : (declaredNames helpers (Segment.nodesAll ss)).Perm
      (declaredNames helpers n.nodes ++ declaredNames helpers (Segment.nodesAll rest)) := by
  have hvisited := visited_takenOutAll (outer_declaredName? helpers) h
  rwa [Without, declaredNames_segments, declaredNames_segments, filterMap_declaredName?, Event.entered_segment]
    at hvisited

/-- a node with nothing behind it -/
theorem ofSegments_concat (n : Segment) (ss : List Segment) : Event.ofSegments (fun _ => true) (ss ++ [n]) =
    Event.ofSegments (fun _ => true) ss ++ Event.ofSegment (fun _ => true) n := by
  induction ss with
  | nil => exact List.append_nil _
  | cons s ss ih => rw [List.cons_append, Event.ofSegments, ih, Event.ofSegments, List.append_assoc]

/-- what a visit reports is the same, but for the order, with the node at the end -/
theorem visited_concat {report : Event → Option String} (hr : Outer report) {n : Segment} {reached : Bool}
    {ss rest : List Segment} (h : n.TakenOutAll reached ss rest) :
    ((Event.ofSegments (fun _ => true) (rest ++ [n])).filterMap report).Perm
      ((Event.ofSegments (fun _ => true) ss).filterMap report) := by
  have hvisited := visited_takenOutAll hr h
  rw [ofSegments_concat, List.filterMap_append]
  exact List.perm_append_comm.trans hvisited.symm

/-- what fragments are made of is declared -/
theorem subperm_fragmentsOf (casing : Casing) {nodes : List Segment} {ds : List Declared}
    (h : ds.Subperm (nodes.filterMap declaration?)) (helpers : Bool) :
    ((fragmentsOf helpers (entries casing ds)).map Prod.fst).Subperm (declaredNames helpers nodes) := by
  obtain ⟨es, hperm, hsub⟩ := h.filter (·.isHelper == helpers)
  rw [fragmentsOf_entries, List.map_map]
  exact ⟨es.map (·.name), hperm.map _, hsub.map _⟩

end Generation

section

variable {casing : Casing} {t : Template} {g : Generated}

theorem Generated.Of.helpers_eq {ops : List (SitedOp casing)} (h : g.Of t ops) :
    g.helpers = Table.ofList (fragmentsOf true (entries casing (declaredAll t.segments))) := by
  rw [h.helpers, ← ofList_fragments, Template.helpers]
  simp only [beq_true]

theorem Generated.Of.sections_eq {ops : List (SitedOp casing)} (h : g.Of t ops) :
    g.sections = Table.ofList (fragmentsOf false (entries casing (declaredAll t.segments))) := by
  rw [h.sections, ← ofList_fragments, Template.sections]
  simp only [beq_false]

/-- declarations of different names make the same tables in any order -/
theorem Generated.Of.eq_of_perm {t' : Template} {g' : Generated} {ops : List (SitedOp casing)} (h : g.Of t ops)
    (h' : g'.Of t' ops)
    (hp : (entries casing (declaredAll t.segments)).Perm (entries casing (declaredAll t'.segments)))
    (hn : ∀ helpers, ((fragmentsOf helpers (entries casing (declaredAll t.segments))).map Prod.fst).Nodup) :
    g' = g := by
  have htables : ∀ helpers, Table.ofList (fragmentsOf helpers (entries casing (declaredAll t'.segments))) =
      Table.ofList (fragmentsOf helpers (entries casing (declaredAll t.segments))) :=
    fun helpers => (Table.ofList_eq_of_perm (fragmentsOf_perm hp helpers) (hn helpers)).symm
  obtain ⟨program, helpers, sections⟩ := g
  obtain ⟨program', helpers', sections'⟩ := g'
  rw [Generated.mk.injEq]
  refine ⟨h'.program.trans h.program.symm, ?_, ?_⟩
  · exact (h'.helpers_eq.trans (htables true)).trans h.helpers_eq.symm
  · exact (h'.sections_eq.trans (htables false)).trans h.sections_eq.symm

namespace Template

/-- a visit reports names once if the nodes declare them once -/
theorem nodup_reported {helpers : Bool} : ((t.visit fun _ => true).filterMap (declaredName? helpers)).Nodup ↔
    (declaredNames helpers t.nodes).Nodup := by
  rw [visit, declaredNames_segments]
  rfl

theorem nodup_declaredNames (h : t.generate casing = .ok g) (helpers : Bool) : (declaredNames helpers t.nodes).Nodup := by
  obtain ⟨hh, hs⟩ := declares_once h
  rw [← nodup_reported]
  cases helpers with
  | true => exact nodup_of_repeats hh
  | false => exact nodup_of_repeats hs

/-- where the segments are lowered, programs are generated if nothing is declared twice -/
theorem generate_of_nodup {r : List (SitedOp casing) × Names} (hr : sitedAll casing .empty t.segments = .ok r)
    (hn : ∀ helpers, (declaredNames helpers t.nodes).Nodup) : ∃ g, t.generate casing = .ok g ∧ g.Of t r.1 := by
  have hf := generate_follows casing (repeats_of_nodup (nodup_reported.2 (hn true)))
    (repeats_of_nodup (nodup_reported.2 (hn false)))
  rwa [hr] at hf

theorem nodup_fragmentsOf (h : t.generate casing = .ok g) (helpers : Bool) :
    ((fragmentsOf helpers (entries casing (declaredAll t.segments))).map Prod.fst).Nodup := by
  obtain ⟨names, hperm, hsub⟩ := subperm_fragmentsOf casing (declares_segments t.segments).subperm helpers
  exact hperm.nodup_iff.1 ((nodup_declaredNames h helpers).sublist hsub)

/-- the inventory is the same if a visit reports the same, but for the order, and nothing twice -/
theorem inventory_congr {t' : Template} (hn : ∀ helpers, (declaredNames helpers t.nodes).Nodup)
    (hp : ∀ {report : Event → Option String}, Outer report →
      ((t'.visit fun _ => true).filterMap report).Perm ((t.visit fun _ => true).filterMap report)) :
    t'.inventory = t.inventory := by
  have hhelpers := hp (outer_declaredName? true)
  have hsections := hp (outer_declaredName? false)
  have htrue := nodup_reported.2 (hn true)
  have hfalse := nodup_reported.2 (hn false)
  unfold inventory
  rw [Inventory.mk.injEq]
  refine ⟨sortNames_congr fun _ => hhelpers.mem_iff, sortNames_congr fun _ => (hp outer_calledName?).mem_iff,
    sortNames_congr fun _ => hsections.mem_iff, ?_, ?_⟩
  · exact (repeats_of_nodup (hhelpers.nodup_iff.2 htrue)).trans (repeats_of_nodup htrue).symm
  · exact (repeats_of_nodup (hsections.nodup_iff.2 hfalse)).trans (repeats_of_nodup hfalse).symm

end Template

/-- the table that is made without a node lacks the names that the node declares -/
theorem ofList_fragmentsOf_takenOut {n : Segment} {reached : Bool} {rest : List Segment}
    (h : t.generate casing = .ok g) (hrest : n.TakenOutAll reached t.segments rest)
    (hleft : LeavesOut casing n reached (declaredAll t.segments) (declaredAll rest)) (helpers : Bool) :
    Table.ofList (fragmentsOf helpers (entries casing (declaredAll rest))) =
      (Table.ofList (fragmentsOf helpers (entries casing (declaredAll t.segments)))).filter
        fun p => !(declaredNames helpers n.nodes).contains p.1 := by
  have hsplit := (declaredNames_takenOutAll hrest helpers).nodup_iff.1 (Template.nodup_declaredNames h helpers)
  have hfragments := fragmentsOf_perm hleft helpers
  rw [fragmentsOf_append] at hfragments
  refine Table.ofList_eq_filter hfragments (Template.nodup_fragmentsOf h helpers) (fun p hp => ?_) fun p hp hname => ?_
  · cases reached with
    | true => exact (subperm_fragmentsOf casing (declares_segment n).subperm helpers).subset (List.mem_map_of_mem hp)
    | false => cases hp
  · have hp := (subperm_fragmentsOf casing (declares_segments rest).subperm helpers).subset (List.mem_map_of_mem hp)
    exact List.disjoint_of_nodup_append hsplit hname hp

/-- **Declarations are inert where they stand.** In a template that has programs, let any node, at whatever depth, be a
declaration of a helper or a section or a comment. It can be taken out, and what is left has programs: the same main
program, and the same helpers and sections but for those of the names that the node declares, itself or inside. With the
node at its end, the template has the same inventory as before. It has the same programs too, unless the node declares
something and stands in a body that generation passes over. -/
theorem declarations_inert (h : t.generate casing = .ok g) {n : Segment} (hmem : n ∈ t.nodes) (hn : n.isInert = true) :
    (∃ reached rest, n.TakenOutAll reached t.segments rest) ∧
    ∀ reached rest, n.TakenOutAll reached t.segments rest →
      (∃ g', Template.generate casing ⟨rest⟩ = .ok g' ∧ g'.program = g.program ∧
        g'.helpers = g.helpers.filter (fun p => !(declaredNames true n.nodes).contains p.1) ∧
        g'.sections = g.sections.filter fun p => !(declaredNames false n.nodes).contains p.1) ∧
      (⟨rest ++ [n]⟩ : Template).inventory = t.inventory ∧
      (reached = true ∨ declaration? n = none → Template.generate casing ⟨rest ++ [n]⟩ = .ok g) := by
  refine ⟨Segment.exists_takenOutAll hmem, fun reached rest hrest => ?_⟩
  obtain ⟨r, hr, hof⟩ := Template.generate_eq h
  obtain ⟨hleft, hidle⟩ := sitedAll_takenOut hn hrest hr
  have hwithout := declaredAll_takenOut hn hrest hr
  have hnodup := Template.nodup_declaredNames h
  refine ⟨?_, Template.inventory_congr hnodup fun hreport => visited_concat hreport hrest, fun hreached => ?_⟩
  · have hrestNodup : ∀ helpers, (declaredNames helpers (Segment.nodesAll rest)).Nodup := fun helpers =>
      ((declaredNames_takenOutAll hrest helpers).nodup_iff.1 (hnodup helpers)).of_append_right
    obtain ⟨g', hg', hof'⟩ := Template.generate_of_nodup (t := ⟨rest⟩) hleft hrestNodup
    refine ⟨g', hg', hof'.program.trans hof.program.symm, ?_, ?_⟩
    · rw [hof'.helpers_eq, hof.helpers_eq]
      exact ofList_fragmentsOf_takenOut h hrest hwithout true
    · rw [hof'.sections_eq, hof.sections_eq]
      exact ofList_fragmentsOf_takenOut h hrest hwithout false
  · have hmovedNodup : ∀ helpers, (declaredNames helpers (Segment.nodesAll (rest ++ [n]))).Nodup := fun helpers => by
      rw [← declaredNames_segments, (visited_concat (outer_declaredName? helpers) hrest).nodup_iff,
        declaredNames_segments]
      exact hnodup helpers
    have hmoved : sitedAll casing .empty (rest ++ [n]) = .ok r :=
      (sitedAll_concat_idle (idle_of_reached hn hidle hreached) _ rest).trans hleft
    have hconcat := hwithout.concat (hreached.imp_right (declared_of_isInert hn))
    obtain ⟨g', hg', hof'⟩ := Template.generate_of_nodup (t := ⟨rest ++ [n]⟩) hmoved hmovedNodup
    obtain rfl := hof.eq_of_perm hof' hconcat (Template.nodup_fragmentsOf h)
    exact hg'

/-- a section with a helper inside, in the body of a loop between two texts -/
def aside : Template :=
  ⟨[.text "a", .each "x" (.name "xs" .start)
    [.namedSection "side" [.helper "link" ["to"] [.inline ⟨.name "to" .start, ""⟩]], .inline ⟨.name "x" .start, ""⟩],
    .text "b"]⟩

theorem declarations_inert_aside : ∃ g g', aside.generate .identity = .ok g ∧ g.helpers.keys = ["link"] ∧
    Template.generate .identity
      ⟨[.text "a", .each "x" (.name "xs" .start) [.inline ⟨.name "x" .start, ""⟩], .text "b"]⟩ = .ok g' ∧
    g'.program = g.program ∧ g'.helpers = g.helpers.filter (fun p => !(["link"].contains p.1)) := by
  obtain ⟨g, hg, hkeys⟩ := exists_ok (x := aside.generate .identity) (p := fun g => g.helpers.keys == ["link"])
    (by decide +kernel)
  have hmem : Segment.namedSection "side" [.helper "link" ["to"] [.inline ⟨.name "to" .start, ""⟩]] ∈ aside.nodes := by
    simp [aside, Template.nodes, Segment.nodesAll, Segment.nodes]
  obtain ⟨⟨g', hg', hprogram, hhelpers, -⟩, -⟩ :=
    (declarations_inert hg hmem rfl).2 _ _ (.behind _ (.inside _ (.each _ _ (.here _))))
  exact ⟨g, g', hg, beq_iff_eq.1 hkeys, hg', hprogram, hhelpers⟩

/-- a helper in an `else` body that stands beside a further `if` -/
def lopsided (inside : List Segment) : Template :=
  ⟨[.branch (.literal "true") [] (.both (.literal "false") [] .nothing inside)]⟩

/-- a declaration of nothing but a name -/
def Segment.bareHelper : Segment := .helper "link" [] []

/-- **A declaration that is passed over does not stay so.** Moved to the end of the template, it has a fragment. -/
theorem declarations_move_lopsided : ∃ g g', (lopsided [.bareHelper]).generate .identity = .ok g ∧
    Segment.bareHelper ∈ (lopsided [.bareHelper]).nodes ∧
    Segment.bareHelper.TakenOutAll false (lopsided [.bareHelper]).segments (lopsided []).segments ∧
    Template.generate .identity ⟨(lopsided []).segments ++ [.bareHelper]⟩ = .ok g' ∧
    g.helpers.keys = [] ∧ g'.helpers.keys = ["link"] := by
  obtain ⟨g, hg, hkeys⟩ := exists_ok (x := (lopsided [.bareHelper]).generate .identity)
    (p := fun g => g.helpers.keys == []) (by decide +kernel)
  obtain ⟨g', hg', hkeys'⟩ := exists_ok
    (x := Template.generate .identity ⟨(lopsided []).segments ++ [.bareHelper]⟩)
    (p := fun g => g.helpers.keys == ["link"]) (by decide +kernel)
  have hmem : Segment.bareHelper ∈ (lopsided [.bareHelper]).nodes := by
    simp [lopsided, Segment.bareHelper, Template.nodes, Segment.nodesAll, Segment.nodes, Alternative.nodes]
  exact ⟨g, g', hg, hmem, .inside _ (.otherwise _ _ (.beside _ _ _ (.here _))), hg', beq_iff_eq.1 hkeys,
    beq_iff_eq.1 hkeys'⟩

end

end TemplateView
