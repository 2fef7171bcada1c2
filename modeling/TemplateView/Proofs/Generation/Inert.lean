/-
Declarations and comments are inert where they stand. `Segment.TakenOutAll` takes one node out of the segments of a
template, at whatever depth. If the node declares something or is a comment, the lowering of what is left is the same:
the operations around the node join as they did (`sitedAll_takenOut`), and of the declarations only those of the node are
missing. A visit reports as much less as it reports of the node (`visited_takenOutAll`).

Generation passes over a body that stands beside a further `if`, so it may not have reached the node at all. Then it did
not make anything of its declarations either.
-/
import TemplateView.Proofs.View.Inventory

namespace TemplateView

/-! ## Taking out a node -/

/-- a declaration of a helper or a section, or a comment -/
def Segment.isInert : Segment → Bool
  | .helper .. | .namedSection .. | .comment _ => true
  | _ => false

mutual

/-- a node is taken out somewhere inside a segment, where generation reaches it or passes over it -/
inductive Segment.TakenOut (n : Segment) : Bool → Segment → Segment → Prop
  | element {reached : Bool} {ss ss' : List Segment} (tag : Tag) (close : EndTag)
      (h : Segment.TakenOutAll n reached ss ss') :
      Segment.TakenOut n reached (.element tag ss close) (.element tag ss' close)
  | block {reached : Bool} {ss ss' : List Segment} (h : Segment.TakenOutAll n reached ss ss') :
      Segment.TakenOut n reached (.block ss) (.block ss')
  | branch {reached : Bool} {ss ss' : List Segment} (test : Expression) (otherwise : Alternative)
      (h : Segment.TakenOutAll n reached ss ss') :
      Segment.TakenOut n reached (.branch test ss otherwise) (.branch test ss' otherwise)
  | otherwise {reached : Bool} {a a' : Alternative} (test : Expression) (ss : List Segment)
      (h : Alternative.TakenOut n reached a a') :
      Segment.TakenOut n reached (.branch test ss a) (.branch test ss a')
  | loop {reached : Bool} {ss ss' : List Segment} (counter : Declaration) (condition iteration : Expression)
      (h : Segment.TakenOutAll n reached ss ss') :
      Segment.TakenOut n reached (.loop counter condition iteration ss) (.loop counter condition iteration ss')
  | each {reached : Bool} {ss ss' : List Segment} (item : String) (collection : Expression)
      (h : Segment.TakenOutAll n reached ss ss') :
      Segment.TakenOut n reached (.each item collection ss) (.each item collection ss')
  | helper {reached : Bool} {ss ss' : List Segment} (name : String) (parameters : List String)
      (h : Segment.TakenOutAll n reached ss ss') :
      Segment.TakenOut n reached (.helper name parameters ss) (.helper name parameters ss')
  | namedSection {reached : Bool} {ss ss' : List Segment} (name : String) (h : Segment.TakenOutAll n reached ss ss') :
      Segment.TakenOut n reached (.namedSection name ss) (.namedSection name ss')

/-- a node is taken out of segments: it is one of them or stands inside one -/
inductive Segment.TakenOutAll (n : Segment) : Bool → List Segment → List Segment → Prop
  | here (ss : List Segment) : Segment.TakenOutAll n true (n :: ss) ss
  | inside {reached : Bool} {s s' : Segment} (ss : List Segment) (h : Segment.TakenOut n reached s s') :
      Segment.TakenOutAll n reached (s :: ss) (s' :: ss)
  | behind {reached : Bool} {ss ss' : List Segment} (s : Segment) (h : Segment.TakenOutAll n reached ss ss') :
      Segment.TakenOutAll n reached (s :: ss) (s :: ss')

/-- a node is taken out of what follows the body of an `if` -/
inductive Alternative.TakenOut (n : Segment) : Bool → Alternative → Alternative → Prop
  | elseBranch {reached : Bool} {ss ss' : List Segment} (test : Expression) (otherwise : Alternative)
      (h : Segment.TakenOutAll n reached ss ss') :
      Alternative.TakenOut n reached (.elseBranch test ss otherwise) (.elseBranch test ss' otherwise)
  | otherwise {reached : Bool} {a a' : Alternative} (test : Expression) (ss : List Segment)
      (h : Alternative.TakenOut n reached a a') :
      Alternative.TakenOut n reached (.elseBranch test ss a) (.elseBranch test ss a')
  | elseBody {reached : Bool} {ss ss' : List Segment} (h : Segment.TakenOutAll n reached ss ss') :
      Alternative.TakenOut n reached (.elseBody ss) (.elseBody ss')
  | bothBranch {reached : Bool} {ss ss' : List Segment} (test : Expression) (otherwise : Alternative)
      (elseBody : List Segment) (h : Segment.TakenOutAll n reached ss ss') :
      Alternative.TakenOut n reached (.both test ss otherwise elseBody) (.both test ss' otherwise elseBody)
  | bothOtherwise {reached : Bool} {a a' : Alternative} (test : Expression) (ss elseBody : List Segment)
      (h : Alternative.TakenOut n reached a a') :
      Alternative.TakenOut n reached (.both test ss a elseBody) (.both test ss a' elseBody)
  /-- the body beside a further `if` -/
  | beside {reached : Bool} {ss ss' : List Segment} (test : Expression) (body : List Segment) (otherwise : Alternative)
      (h : Segment.TakenOutAll n reached ss ss') :
      Alternative.TakenOut n false (.both test body otherwise ss) (.both test body otherwise ss')

end

mutual

/-- a node inside a segment is the segment, or can be taken out of it -/
theorem Segment.exists_takenOut {n : Segment} : ∀ {s : Segment}, n ∈ s.nodes → n = s ∨ ∃ reached s', n.TakenOut reached s s'
  | .element tag children close, h => by
    rw [Segment.nodes, List.mem_cons] at h
    exact h.imp_right fun h => let ⟨_, _, h⟩ := Segment.exists_takenOutAll h; ⟨_, _, .element tag close h⟩
  | .block body, h => by
    rw [Segment.nodes, List.mem_cons] at h
    exact h.imp_right fun h => let ⟨_, _, h⟩ := Segment.exists_takenOutAll h; ⟨_, _, .block h⟩
  | .branch test body otherwise, h => by
    rw [Segment.nodes, List.mem_cons, List.mem_append] at h
    rcases h with rfl | h | h
    · exact .inl rfl
    · obtain ⟨_, _, h⟩ := Segment.exists_takenOutAll h
      exact .inr ⟨_, _, .branch test otherwise h⟩
    · obtain ⟨_, _, h⟩ := Alternative.exists_takenOut h
      exact .inr ⟨_, _, .otherwise test body h⟩
  | .loop counter condition iteration body, h => by
    rw [Segment.nodes, List.mem_cons] at h
    exact h.imp_right fun h => let ⟨_, _, h⟩ := Segment.exists_takenOutAll h; ⟨_, _, .loop counter condition iteration h⟩
  | .each item collection body, h => by
    rw [Segment.nodes, List.mem_cons] at h
    exact h.imp_right fun h => let ⟨_, _, h⟩ := Segment.exists_takenOutAll h; ⟨_, _, .each item collection h⟩
  | .helper name parameters body, h => by
    rw [Segment.nodes, List.mem_cons] at h
    exact h.imp_right fun h => let ⟨_, _, h⟩ := Segment.exists_takenOutAll h; ⟨_, _, .helper name parameters h⟩
  | .namedSection name body, h => by
    rw [Segment.nodes, List.mem_cons] at h
    exact h.imp_right fun h => let ⟨_, _, h⟩ := Segment.exists_takenOutAll h; ⟨_, _, .namedSection name h⟩
  | .text _, h | .emptyElement .., h | .htmlComment .., h | .docType .., h | .inline _, h | .declaration _, h
  | .action _, h | .comment _, h => .inl (by simpa [Segment.nodes] using h)

/-- **Every node can be taken out.** -/
theorem Segment.exists_takenOutAll {n : Segment} : ∀ {ss : List Segment}, n ∈ Segment.nodesAll ss →
    ∃ reached ss', n.TakenOutAll reached ss ss'
  | [], h => nomatch h
  | s :: ss, h => by
    rw [Segment.nodesAll, List.mem_append] at h
    rcases h with h | h
    · rcases Segment.exists_takenOut h with rfl | ⟨_, _, h⟩
      · exact ⟨_, _, .here ss⟩
      · exact ⟨_, _, .inside ss h⟩
    · obtain ⟨_, _, h⟩ := Segment.exists_takenOutAll h
      exact ⟨_, _, .behind s h⟩

theorem Alternative.exists_takenOut {n : Segment} : ∀ {a : Alternative}, n ∈ a.nodes →
    ∃ reached a', Alternative.TakenOut n reached a a'
  | .nothing, h => nomatch h
  | .elseBranch test body otherwise, h => by
    rw [Alternative.nodes, List.mem_append] at h
    rcases h with h | h
    · obtain ⟨_, _, h⟩ := Segment.exists_takenOutAll h
      exact ⟨_, _, .elseBranch test otherwise h⟩
    · obtain ⟨_, _, h⟩ := Alternative.exists_takenOut h
      exact ⟨_, _, .otherwise test body h⟩
  | .elseBody body, h => by
    rw [Alternative.nodes] at h
    obtain ⟨_, _, h⟩ := Segment.exists_takenOutAll h
    exact ⟨_, _, .elseBody h⟩
  | .both test body otherwise elseBody, h => by
    rw [Alternative.nodes, List.mem_append, List.mem_append] at h
    rcases h with (h | h) | h
    · obtain ⟨_, _, h⟩ := Segment.exists_takenOutAll h
      exact ⟨_, _, .bothBranch test otherwise elseBody h⟩
    · obtain ⟨_, _, h⟩ := Alternative.exists_takenOut h
      exact ⟨_, _, .bothOtherwise test body elseBody h⟩
    · obtain ⟨_, _, h⟩ := Segment.exists_takenOutAll h
      exact ⟨_, _, .beside test body otherwise h⟩

end

namespace Generation

variable {casing : Casing} {n : Segment}

/-! ## Operations -/

/-- a segment that has no operations and declares no names, wherever it stands -/
def Idle (casing : Casing) (n : Segment) : Prop := ∀ names, sited casing names n = .ok ([], names)

/-- a declaration whose body is lowered, or a comment -/
theorem idle_of_isInert (hn : n.isInert = true) {names : Names} {r : List (SitedOp casing) × Names}
    (h : sited casing names n = .ok r) : Idle casing n := by
  intro names'
  cases n with
  | helper name parameters ss =>
    simp only [sited, bind_eq_ok] at h ⊢
    obtain ⟨q, hq, -⟩ := h
    exact ⟨q, hq, rfl⟩
  | namedSection name ss =>
    simp only [sited, bind_eq_ok] at h ⊢
    obtain ⟨q, hq, -⟩ := h
    exact ⟨q, hq, rfl⟩
  | comment text => rfl
  | _ => cases hn

/-- so is a node that is reached where segments are lowered, and so is a comment anywhere -/
theorem idle_of_reached (hn : n.isInert = true) {reached : Bool} (h : reached = true → Idle casing n)
    (hr : reached = true ∨ declaration? n = none) : Idle casing n := by
  rcases hr with hr | hr
  · exact h hr
  cases n with
  | comment text => exact fun _ => rfl
  | helper => cases hr
  | namedSection => cases hr
  | _ => cases hn

theorem sitedAll_cons_idle (h : Idle casing n) (names : Names) (ss : List Segment) :
    sitedAll casing names (n :: ss) = sitedAll casing names ss := by
  rw [sitedAll, h names]
  show (sitedAll casing names ss >>= fun r => pure ([] ++ r.1, r.2)) = _
  cases sitedAll casing names ss <;> rfl

mutual

/-- **A segment has the operations it had.** The node that is taken out of it has none. -/
theorem sited_takenOut (hn : n.isInert = true) {names : Names} {r : List (SitedOp casing) × Names} :
    ∀ {reached : Bool} {s s' : Segment}, n.TakenOut reached s s' → sited casing names s = .ok r →
      sited casing names s' = .ok r ∧ (reached = true → Idle casing n)
  | _, _, _, .element tag close h, hs => by
    simp only [sited, bind_eq_ok] at hs ⊢
    obtain ⟨head, hhead, q, hq, hr⟩ := hs
    obtain ⟨hq, hidle⟩ := sitedAll_takenOut hn h hq
    exact ⟨⟨head, hhead, q, hq, hr⟩, hidle⟩
  | _, _, _, .block h, hs => by
    rw [sited] at hs ⊢
    exact sitedAll_takenOut hn h hs
  | _, _, _, .branch test otherwise h, hs => by
    simp only [sited, bind_eq_ok] at hs ⊢
    obtain ⟨test, htest, q, hq, hrest⟩ := hs
    obtain ⟨hq, hidle⟩ := sitedAll_takenOut hn h hq
    exact ⟨⟨test, htest, q, hq, hrest⟩, hidle⟩
  | _, _, _, .otherwise test ss h, hs => by
    simp only [sited, bind_eq_ok] at hs ⊢
    obtain ⟨test, htest, q, hq, ops, hops, hr⟩ := hs
    obtain ⟨hops, hidle⟩ := sitedAlternative_takenOut hn h hops
    exact ⟨⟨test, htest, q, hq, ops, hops, hr⟩, hidle⟩
  | _, _, _, .loop counter condition iteration h, hs => by
    simp only [sited, bind_eq_ok] at hs ⊢
    obtain ⟨init, hinit, condition, hcondition, iteration, hiteration, q, hq, hr⟩ := hs
    obtain ⟨hq, hidle⟩ := sitedAll_takenOut hn h hq
    exact ⟨⟨init, hinit, condition, hcondition, iteration, hiteration, q, hq, hr⟩, hidle⟩
  | _, _, _, .each item collection h, hs => by
    simp only [sited, bind_eq_ok] at hs ⊢
    obtain ⟨collection, hcollection, q, hq, hr⟩ := hs
    obtain ⟨hq, hidle⟩ := sitedAll_takenOut hn h hq
    exact ⟨⟨collection, hcollection, q, hq, hr⟩, hidle⟩
  | _, _, _, .helper name parameters h, hs => by
    simp only [sited, bind_eq_ok] at hs ⊢
    obtain ⟨q, hq, hr⟩ := hs
    obtain ⟨hq, hidle⟩ := sitedAll_takenOut hn h hq
    exact ⟨⟨q, hq, hr⟩, hidle⟩
  | _, _, _, .namedSection name h, hs => by
    simp only [sited, bind_eq_ok] at hs ⊢
    obtain ⟨q, hq, hr⟩ := hs
    obtain ⟨hq, hidle⟩ := sitedAll_takenOut hn h hq
    exact ⟨⟨q, hq, hr⟩, hidle⟩

theorem sitedAll_takenOut (hn : n.isInert = true) {names : Names} {r : List (SitedOp casing) × Names} :
    ∀ {reached : Bool} {ss ss' : List Segment}, n.TakenOutAll reached ss ss' → sitedAll casing names ss = .ok r →
      sitedAll casing names ss' = .ok r ∧ (reached = true → Idle casing n)
  | _, _, _, .here ss, hs => by
    have hidle : Idle casing n := by
      rw [sitedAll, bind_eq_ok] at hs
      obtain ⟨q, hq, -⟩ := hs
      exact idle_of_isInert hn hq
    rw [sitedAll_cons_idle hidle] at hs
    exact ⟨hs, fun _ => hidle⟩
  | _, _, _, .inside ss h, hs => by
    simp only [sitedAll, bind_eq_ok] at hs ⊢
    obtain ⟨q, hq, hrest⟩ := hs
    obtain ⟨hq, hidle⟩ := sited_takenOut hn h hq
    exact ⟨⟨q, hq, hrest⟩, hidle⟩
  | _, _, _, .behind s h, hs => by
    simp only [sitedAll, bind_eq_ok] at hs ⊢
    obtain ⟨q, hq, more, hmore, hr⟩ := hs
    obtain ⟨hmore, hidle⟩ := sitedAll_takenOut hn h hmore
    exact ⟨⟨q, hq, more, hmore, hr⟩, hidle⟩

theorem sitedAlternative_takenOut (hn : n.isInert = true) {names : Names} {r : List (SitedOp casing)} :
    ∀ {reached : Bool} {a a' : Alternative}, Alternative.TakenOut n reached a a' →
      sitedAlternative casing names a = .ok r →
      sitedAlternative casing names a' = .ok r ∧ (reached = true → Idle casing n)
  | _, _, _, .elseBranch test otherwise h, hs | _, _, _, .bothBranch test otherwise _ h, hs => by
    simp only [sitedAlternative, bind_eq_ok] at hs ⊢
    obtain ⟨test, htest, q, hq, hrest⟩ := hs
    obtain ⟨hq, hidle⟩ := sitedAll_takenOut hn h hq
    exact ⟨⟨test, htest, q, hq, hrest⟩, hidle⟩
  | _, _, _, .otherwise test ss h, hs | _, _, _, .bothOtherwise test ss _ h, hs => by
    simp only [sitedAlternative, bind_eq_ok] at hs ⊢
    obtain ⟨test, htest, q, hq, ops, hops, hr⟩ := hs
    obtain ⟨hops, hidle⟩ := sitedAlternative_takenOut hn h hops
    exact ⟨⟨test, htest, q, hq, ops, hops, hr⟩, hidle⟩
  | _, _, _, .elseBody h, hs => by
    simp only [sitedAlternative, bind_eq_ok] at hs ⊢
    obtain ⟨q, hq, hr⟩ := hs
    obtain ⟨hq, hidle⟩ := sitedAll_takenOut hn h hq
    exact ⟨⟨q, hq, hr⟩, hidle⟩
  | _, _, _, .beside test body otherwise h, hs => by
    -- the body is passed over, so nothing is known of the node
    rw [sitedAlternative] at hs ⊢
    exact ⟨hs, nofun⟩

end

/-! ## Declarations -/

/-- what a declaration puts into the tables: into which one, the name and the fragment -/
def Declared.entry (casing : Casing) (d : Declared) : Bool × String × Fragment :=
  (d.isHelper, d.name, d.fragment casing)

/-- the entries of declarations -/
def entries (casing : Casing) (ds : List Declared) : List (Bool × String × Fragment) := ds.map (Declared.entry casing)

theorem entries_append (casing : Casing) (ds es : List Declared) :
    entries casing (ds ++ es) = entries casing ds ++ entries casing es := List.map_append

/-- some items are the rest of them with those of a node, in whatever order -/
def Without {α : Type} (own all rest : List α) : Prop := all.Perm (own ++ rest)

theorem Without.append_right {α : Type} {own all rest : List α} (h : Without own all rest) (more : List α) :
    Without own (all ++ more) (rest ++ more) := by
  rw [Without, ← List.append_assoc]
  exact List.Perm.append_right _ h

theorem Without.append_left {α : Type} {own all rest : List α} (h : Without own all rest) (more : List α) :
    Without own (more ++ all) (more ++ rest) :=
  (List.Perm.append_left _ h).trans (List.perm_append_comm_assoc ..)

/-- the entries of what a node declares, if generation reaches it -/
def entriesOf (casing : Casing) (n : Segment) (reached : Bool) : List (Bool × String × Fragment) :=
  if reached then entries casing (declared n) else []

/-- some declarations are those of a node that generation reaches and others, by their entries -/
def LeavesOut (casing : Casing) (n : Segment) (reached : Bool) (ds ds' : List Declared) : Prop :=
  Without (entriesOf casing n reached) (entries casing ds) (entries casing ds')

section

variable {reached : Bool} {ds ds' : List Declared}

theorem LeavesOut.append_right (h : LeavesOut casing n reached ds ds') (es : List Declared) :
    LeavesOut casing n reached (ds ++ es) (ds' ++ es) := by
  rw [LeavesOut, entries_append, entries_append]
  exact Without.append_right h _

theorem LeavesOut.append_left (h : LeavesOut casing n reached ds ds') (es : List Declared) :
    LeavesOut casing n reached (es ++ ds) (es ++ ds') := by
  rw [LeavesOut, entries_append, entries_append]
  exact Without.append_left h _

/-- a declaration around a node keeps its fragment -/
theorem LeavesOut.enclosed (h : LeavesOut casing n reached ds ds') {d d' : Declared}
    (hd : d.entry casing = d'.entry casing) : LeavesOut casing n reached (ds ++ [d]) (ds' ++ [d']) := by
  have h := h.append_right [d']
  rw [LeavesOut, entries_append] at h ⊢
  rwa [entries, entries, List.map_singleton, hd]

end

/-- a body is lowered to the same fragment without the node -/
theorem entry_of_sited {d d' : Declared} (hk : d.isHelper = d'.isHelper) (hname : d.name = d'.name)
    (hp : d.parameters = d'.parameters) {r : List (SitedOp casing) × Names}
    (h : sitedAll casing (.ofLocals d.parameters) d.body = .ok r)
    (h' : sitedAll casing (.ofLocals d'.parameters) d'.body = .ok r) : d.entry casing = d'.entry casing := by
  rw [Declared.entry, Declared.entry, fragment_of_sited h, fragment_of_sited h', hk, hname, hp]

mutual

/-- **Of the declarations, those of the node are missing**, and no other one's fragment changes. -/
theorem declared_takenOut (hn : n.isInert = true) {names : Names} {r : List (SitedOp casing) × Names} :
    ∀ {reached : Bool} {s s' : Segment}, n.TakenOut reached s s' → sited casing names s = .ok r →
      LeavesOut casing n reached (declared s) (declared s')
  | _, _, _, .element tag close h, hs => by
    simp only [sited, bind_eq_ok] at hs
    obtain ⟨_, -, _, hq, -⟩ := hs
    exact declaredAll_takenOut hn h hq
  | _, _, _, .block h, hs => by
    rw [sited] at hs
    exact declaredAll_takenOut hn h hs
  | _, _, _, .branch test otherwise h, hs => by
    simp only [sited, bind_eq_ok] at hs
    obtain ⟨_, -, _, hq, -⟩ := hs
    exact (declaredAll_takenOut hn h hq).append_right _
  | _, _, _, .otherwise test ss h, hs => by
    simp only [sited, bind_eq_ok] at hs
    obtain ⟨_, -, _, -, _, hops, -⟩ := hs
    exact (declaredAlternative_takenOut hn h hops).append_left _
  | _, _, _, .loop counter condition iteration h, hs => by
    simp only [sited, bind_eq_ok] at hs
    obtain ⟨_, -, _, -, _, -, _, hq, -⟩ := hs
    exact declaredAll_takenOut hn h hq
  | _, _, _, .each item collection h, hs => by
    simp only [sited, bind_eq_ok] at hs
    obtain ⟨_, -, _, hq, -⟩ := hs
    exact declaredAll_takenOut hn h hq
  | _, _, _, .helper name parameters h, hs => by
    simp only [sited, bind_eq_ok] at hs
    obtain ⟨_, hq, -⟩ := hs
    exact (declaredAll_takenOut hn h hq).enclosed (entry_of_sited rfl rfl rfl hq (sitedAll_takenOut hn h hq).1)
  | _, _, _, .namedSection name h, hs => by
    simp only [sited, bind_eq_ok] at hs
    obtain ⟨_, hq, -⟩ := hs
    exact (declaredAll_takenOut hn h hq).enclosed (entry_of_sited rfl rfl rfl hq (sitedAll_takenOut hn h hq).1)

theorem declaredAll_takenOut (hn : n.isInert = true) {names : Names} {r : List (SitedOp casing) × Names} :
    ∀ {reached : Bool} {ss ss' : List Segment}, n.TakenOutAll reached ss ss' → sitedAll casing names ss = .ok r →
      LeavesOut casing n reached (declaredAll ss) (declaredAll ss')
  | _, _, _, .here ss, _ => by
    rw [LeavesOut, Without, declaredAll, entries_append]
    rfl
  | _, _, _, .inside ss h, hs => by
    simp only [sitedAll, bind_eq_ok] at hs
    obtain ⟨_, hq, -⟩ := hs
    exact (declared_takenOut hn h hq).append_right _
  | _, _, _, .behind s h, hs => by
    simp only [sitedAll, bind_eq_ok] at hs
    obtain ⟨_, -, _, hmore, -⟩ := hs
    exact (declaredAll_takenOut hn h hmore).append_left _

theorem declaredAlternative_takenOut (hn : n.isInert = true) {names : Names} {r : List (SitedOp casing)} :
    ∀ {reached : Bool} {a a' : Alternative}, Alternative.TakenOut n reached a a' →
      sitedAlternative casing names a = .ok r →
      LeavesOut casing n reached (declaredAlternative a) (declaredAlternative a')
  | _, _, _, .elseBranch test otherwise h, hs | _, _, _, .bothBranch test otherwise _ h, hs => by
    simp only [sitedAlternative, bind_eq_ok] at hs
    obtain ⟨_, -, _, hq, -⟩ := hs
    exact (declaredAll_takenOut hn h hq).append_right _
  | _, _, _, .otherwise test ss h, hs | _, _, _, .bothOtherwise test ss _ h, hs => by
    simp only [sitedAlternative, bind_eq_ok] at hs
    obtain ⟨_, -, _, -, _, hops, -⟩ := hs
    exact (declaredAlternative_takenOut hn h hops).append_left _
  | _, _, _, .elseBody h, hs => by
    simp only [sitedAlternative, bind_eq_ok] at hs
    obtain ⟨_, hq, -⟩ := hs
    exact declaredAll_takenOut hn h hq
  | _, _, _, .beside test body otherwise h, hs => .refl _

end

/-! ## A node at the end -/

/-- **A node without operations changes nothing at the end.** -/
theorem sitedAll_concat_idle (h : Idle casing n) (names : Names) (ss : List Segment) :
    sitedAll casing names (ss ++ [n]) = sitedAll casing names ss := by
  induction ss generalizing names with
  | nil => exact sitedAll_cons_idle h names []
  | cons s ss ih =>
    rw [List.cons_append, sitedAll, sitedAll]
    simp only [ih]

theorem declaredAll_append (ss more : List Segment) :
    declaredAll (ss ++ more) = declaredAll ss ++ declaredAll more := by
  induction ss with
  | nil => rfl
  | cons s ss ih => rw [List.cons_append, declaredAll, ih, declaredAll, List.append_assoc]

/-- an inert node that declares nothing itself is a comment -/
theorem declared_of_isInert (hn : n.isInert = true) (h : declaration? n = none) : declared n = [] := by
  cases n with
  | comment text => rfl
  | helper => cases h
  | namedSection => cases h
  | _ => cases hn

/-- its declarations are as many and the same at the end as where the node was taken out -/
theorem LeavesOut.concat {reached : Bool} {ss rest : List Segment}
    (h : LeavesOut casing n reached (declaredAll ss) (declaredAll rest)) (hr : reached = true ∨ declared n = []) :
    (entries casing (declaredAll ss)).Perm (entries casing (declaredAll (rest ++ [n]))) := by
  have hsingle : declaredAll [n] = declared n := List.append_nil _
  have hown : entriesOf casing n reached = entries casing (declared n) := by
    unfold entriesOf
    rcases hr with hr | hr
    · rw [if_pos hr]
    · rw [hr]
      exact ite_self _
  rw [declaredAll_append, hsingle, entries_append, ← hown]
  exact List.Perm.trans h List.perm_append_comm

/-! ## Visits -/

/-- a report of segments that does not depend on what is inside them -/
def Outer (report : Event → Option String) : Prop :=
  ∀ {n : Segment} {reached : Bool} {s s' : Segment}, n.TakenOut reached s s' →
    report (.enter s) = report (.enter s') ∧ report (.exit s) = report (.exit s')

section

open Event

variable {report : Event → Option String}

/-- what is reported on a visit of a segment, and how much of it is left without some -/
theorem without_ofSegment {own : List String} {s s' : Segment}
    (h : Without own ((inside s).filterMap report) ((inside s').filterMap report))
    (hs : report (.enter s) = report (.enter s') ∧ report (.exit s) = report (.exit s')) :
    Without own ((ofSegment (fun _ => true) s).filterMap report) ((ofSegment (fun _ => true) s').filterMap report) := by
  have hsplit (s : Segment) : (ofSegment (fun _ => true) s).filterMap report =
      (report (.enter s)).toList ++ ((inside s).filterMap report ++ (report (.exit s)).toList) := by
    rw [ofSegment_eq, List.filterMap_cons, List.filterMap_append, List.filterMap_cons, List.filterMap_nil]
    cases report (.enter s) <;> cases report (.exit s) <;> rfl
  rw [hsplit, hsplit, hs.1, hs.2]
  exact (h.append_right _).append_left _

mutual

/-- what is reported inside a segment from which a node is taken out -/
theorem visited_takenOut (hr : Outer report) : ∀ {reached : Bool} {s s' : Segment}, n.TakenOut reached s s' →
    Without ((ofSegment (fun _ => true) n).filterMap report) ((inside s).filterMap report) ((inside s').filterMap report)
  | _, _, _, .element tag close h => by
    simp only [inside, List.filterMap_append]
    exact (visited_takenOutAll hr h).append_left _
  | _, _, _, .block h => visited_takenOutAll hr h
  | _, _, _, .branch test otherwise h => by
    simp only [inside, List.filterMap_append]
    exact ((visited_takenOutAll hr h).append_left _).append_right _
  | _, _, _, .otherwise test ss h => by
    simp only [inside, List.filterMap_append]
    exact (visited_alternative hr h).append_left _
  | _, _, _, .loop counter condition iteration h => by
    simp only [inside, List.filterMap_append]
    exact (visited_takenOutAll hr h).append_left _
  | _, _, _, .each item collection h => by
    simp only [inside, List.filterMap_append]
    exact (visited_takenOutAll hr h).append_left _
  | _, _, _, .helper name parameters h => visited_takenOutAll hr h
  | _, _, _, .namedSection name h => visited_takenOutAll hr h

/-- **A visit reports as much less as it reports of the node**, wherever the node was. -/
theorem visited_takenOutAll (hr : Outer report) : ∀ {reached : Bool} {ss ss' : List Segment},
    n.TakenOutAll reached ss ss' → Without ((ofSegment (fun _ => true) n).filterMap report)
      ((ofSegments (fun _ => true) ss).filterMap report) ((ofSegments (fun _ => true) ss').filterMap report)
  | _, _, _, .here ss => by rw [Without, ofSegments, List.filterMap_append]
  | _, _, _, .inside ss h => by
    rw [ofSegments, ofSegments, List.filterMap_append, List.filterMap_append]
    exact (without_ofSegment (visited_takenOut hr h) (hr h)).append_right _
  | _, _, _, .behind s h => by
    rw [ofSegments, ofSegments, List.filterMap_append, List.filterMap_append]
    exact (visited_takenOutAll hr h).append_left _

theorem visited_alternative (hr : Outer report) : ∀ {reached : Bool} {a a' : Alternative},
    Alternative.TakenOut n reached a a' → Without ((ofSegment (fun _ => true) n).filterMap report)
      ((ofAlternative (fun _ => true) a).filterMap report) ((ofAlternative (fun _ => true) a').filterMap report)
  | _, _, _, .elseBranch test otherwise h => by
    simp only [ofAlternative, List.filterMap_append]
    exact ((visited_takenOutAll hr h).append_left _).append_right _
  | _, _, _, .otherwise test ss h => by
    simp only [ofAlternative, List.filterMap_append]
    exact (visited_alternative hr h).append_left _
  | _, _, _, .elseBody h => visited_takenOutAll hr h
  | _, _, _, .bothBranch test otherwise elseBody h => by
    simp only [ofAlternative, List.filterMap_append]
    exact (((visited_takenOutAll hr h).append_left _).append_right _).append_right _
  | _, _, _, .bothOtherwise test ss elseBody h => by
    simp only [ofAlternative, List.filterMap_append]
    exact ((visited_alternative hr h).append_left _).append_right _
  | _, _, _, .beside test body otherwise h => by
    simp only [ofAlternative, List.filterMap_append]
    exact (visited_takenOutAll hr h).append_left _

end

end

end Generation

end TemplateView
