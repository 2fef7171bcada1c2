/-
Views with helpers of a host. What a name calls in such a view is a builtin, or else the last helper that the host
registered under it, or else the helper that the template declares; sections and the program are the template's own.
-/
import TemplateView.Proofs.Generation.Compilation

namespace TemplateView

/-! ## Builtins -/

theorem builtin?_eq_none_iff {context : Context} {name : String} {arguments : List Value} :
    builtin? context name arguments = none ↔ name ∉ Inventory.builtins := by
  unfold builtin?
  split
  · exact ⟨nofun, fun h => absurd (by decide) h⟩
  · refine ⟨fun h => ?_, fun h => absurd (by decide) h⟩
    split at h <;> cases h
  · exact ⟨nofun, fun h => absurd (by decide) h⟩
  · next h₁ h₂ h₃ =>
    refine ⟨fun _ hn => ?_, fun _ => rfl⟩
    simp only [Inventory.builtins, List.mem_cons, List.not_mem_nil, or_false] at hn
    exact hn.elim h₁ fun hn => hn.elim h₂ h₃

/-- a builtin can only refuse its arguments -/
theorem builtin?_eq_error {context : Context} {name : String} {arguments : List Value} {e : RenderError}
    (h : builtin? context name arguments = some (.error e)) : ∃ message, e = .helper name message := by
  unfold builtin? at h
  split at h
  · cases h
  · split at h
    · cases h
    · cases h; exact ⟨_, rfl⟩
  · cases h
  · cases h

/-! ## Registered helpers -/

/-- a helper of a host -/
abbrev Host := List Value → Except RenderError Value

/-- the view with helpers of a host, registered in order -/
def View.registerAll (v : View) (hosts : List (String × Host)) : View :=
  hosts.foldl (fun v p => v.register p.1 p.2) v

/-- the declaration of a helper that a template declares -/
def Template.helper? (t : Template) (name : String) : Option Generation.Declared := (Table.ofList t.helpers).get? name

/-- the declaration of a section -/
def Template.section? (t : Template) (name : String) : Option Generation.Declared := (Table.ofList t.sections).get? name

open Generation

namespace Template

theorem helper?_spec {t : Template} {name : String} {d : Declared} (h : t.helper? name = some d) :
    d ∈ declaredAll t.segments ∧ d.name = name := by
  obtain ⟨d', hd, he⟩ := List.mem_map.1 (Table.mem_of_mem_ofList (Table.mem_of_get? h))
  cases he
  exact ⟨(List.mem_filter.1 hd).1, rfl⟩

theorem section?_spec {t : Template} {name : String} {d : Declared} (h : t.section? name = some d) :
    d ∈ declaredAll t.segments ∧ d.name = name := by
  obtain ⟨d', hd, he⟩ := List.mem_map.1 (Table.mem_of_mem_ofList (Table.mem_of_get? h))
  cases he
  exact ⟨(List.mem_filter.1 hd).1, rfl⟩

end Template

namespace View

/-- what a registered name calls -/
theorem get?_registerAll (v : View) (hosts : List (String × Host)) (name : String) :
    (v.registerAll hosts).helpers.get? name =
      match (Table.ofList hosts).get? name with
      | some f => some (.host f)
      | none => v.helpers.get? name := by
  have key : ∀ (hosts : List (String × Host)) (w : View) (t : Table Host),
      (∀ name, w.helpers.get? name = match t.get? name with | some f => some (.host f) | none => v.helpers.get? name) →
      (w.registerAll hosts).helpers.get? name =
        match (hosts.foldl (fun t p => t.insert p.1 p.2) t).get? name with
        | some f => some (.host f)
        | none => v.helpers.get? name := by
    intro hosts
    induction hosts with
    | nil => exact fun w t h => h name
    | cons p hosts ih =>
      intro w t h
      refine ih (w.register p.1 p.2) (t.insert p.1 p.2) fun other => ?_
      show (w.helpers.insert p.1 (.host p.2)).get? other = _
      by_cases ho : other = p.1
      · subst ho
        rw [Table.get?_insert_self, Table.get?_insert_self]
      · rw [Table.get?_insert_of_ne _ _ ho, Table.get?_insert_of_ne _ _ ho]
        exact h other
  exact key hosts v [] fun _ => rfl

theorem registerAll_eq (v : View) (hosts : List (String × Host)) :
    v.registerAll hosts = { v with helpers := (v.registerAll hosts).helpers } := by
  have key : ∀ (hosts : List (String × Host)) (w : View),
      w.registerAll hosts = { w with helpers := (w.registerAll hosts).helpers } := by
    intro hosts
    induction hosts with
    | nil => exact fun _ => rfl
    | cons p hosts ih => exact fun w => ih (w.register p.1 p.2)
  exact key hosts v

/-- a view renders by its own program, whatever a host registers -/
theorem renderWith_registerAll (v : View) (hosts : List (String × Host)) (steps : Nat) (model : Json)
    (context : Context) : (v.registerAll hosts).renderWith steps model context =
      v.program.run ((v.registerAll hosts).surroundings ⟨.ofJson model, context, steps⟩) [] := by
  have hprogram : (v.registerAll hosts).program = v.program := by rw [registerAll_eq]
  rw [renderWith, hprogram]

/-- registered helpers add no programs to a view -/
theorem fragment_registerAll {v : View} {hosts : List (String × Host)} :
    ∀ {f : Fragment}, f ∈ (v.registerAll hosts).fragments → f ∈ v.fragments := by
  induction hosts generalizing v with
  | nil => exact id
  | cons p hosts ih =>
    intro f hf
    rcases List.mem_append.1 (ih (v := v.register p.1 p.2) hf) with h | h
    · obtain ⟨q, hq, hd⟩ := List.mem_filterMap.1 h
      rcases Table.mem_insert hq with rfl | hq
      · cases hd
      · exact List.mem_append_left _ (List.mem_filterMap.2 ⟨q, hq, hd⟩)
    · exact List.mem_append_right _ h

theorem ops_registerAll {v : View} {hosts : List (String × Host)} {op : Op} (h : op ∈ (v.registerAll hosts).ops) :
    op ∈ v.ops := by
  rcases List.mem_append.1 h with h | h
  · rw [registerAll_eq] at h
    exact List.mem_append_left _ h
  · obtain ⟨f, hf, ho⟩ := List.mem_flatMap.1 h
    exact mem_ops_of_fragment (fragment_registerAll hf) ho

/-- a view of a template with helpers of a host -/
structure Serves (v : View) (casing : Casing) (t : Template) (hosts : List (String × Host)) : Prop where
  program : ∃ r : List (SitedOp casing) × Names, sitedAll casing .empty t.segments = .ok r ∧
    v.program = SitedOp.program r.1
  /-- every declared body could be lowered -/
  lowered : ∀ d ∈ declaredAll t.segments, d.Lowered casing
  helper : ∀ name, v.helpers.get? name =
    match (Table.ofList hosts).get? name with
    | some f => some (.host f)
    | none => (t.helper? name).map fun d => .declared (d.fragment casing)
  sections : ∀ name, v.sections.get? name = (t.section? name).map fun d => d.fragment casing

theorem Of.serves {v : View} {casing : Casing} {t : Template} (h : v.Of casing t) (hosts : List (String × Host)) :
    (v.registerAll hosts).Serves casing t hosts where
  program := by rw [registerAll_eq]; exact h.program
  lowered := h.lowered
  helper := fun name => by
    rw [get?_registerAll, h.helpers, Table.get?_map fun d : Declared => Helper.declared (d.fragment casing)]
    rfl
  sections := fun name => by
    rw [registerAll_eq]
    show v.sections.get? name = _
    rw [h.sections, Table.get?_map fun d : Declared => d.fragment casing]
    rfl

end View

end TemplateView
