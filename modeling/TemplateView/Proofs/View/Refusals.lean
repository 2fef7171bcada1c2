/-
Why templates are refused. `Template.Fault` lists what a template cannot be compiled for: a helper or a section declared
twice, and the faults of its expressions where they stand. Generation fails for such a fault (`fault_of_generate`) and
wherever there is one (`Fault.generate`). Once a source has been parsed, the generator's own failures are not among them:
all its literals stand for values, and all its operators are in the tables of the generator. `refused_for_faults` says so
of every source and all options.
-/
import TemplateView.Proofs.Generation.Faults
import TemplateView.Proofs.Grammar.Formed
import TemplateView.Proofs.View.Inventory

namespace TemplateView

open Generation

/-! ## Faults of templates -/

/-- what a template cannot be compiled for -/
inductive Template.Fault (t : Template) : GenerationCause → Prop
  /-- a helper declared twice -/
  | duplicateHelper {name : String} (h : 2 ≤ (t.helpers.map Prod.fst).count name) : Fault t (.duplicateHelper name)
  /-- a section declared twice -/
  | duplicateSection {name : String} (h : 2 ≤ (t.sections.map Prod.fst).count name) : Fault t (.duplicateSection name)
  /-- an expression that has no meaning under the names declared where it stands -/
  | occurrence {o : Occurrence} {c : GenerationCause} (ho : o ∈ t.occurrences) (h : o.Fault c) : Fault t c

/-! ## Generation -/

namespace Template

variable {t : Template} {casing : Casing}

/-- a name that a visit reports again for declarations of one kind is that of two such declarations -/
theorem two_le_count (hw : t.Whole) {report : Event → Option String} {keep : Declared → Bool}
    (h : ∀ ev, report ev = ((ev.entered?.bind declaration?).filter keep).map (·.name)) {name : String}
    (hn : name ∈ repeats [] ((t.visit fun _ => true).filterMap report)) :
    2 ≤ ((((declaredAll t.segments).filter keep).map fun d => (d.name, d)).map Prod.fst).count name := by
  rw [t.visit_declarations h, mem_repeats] at hn
  rw [← (perm_pairs hw keep).count_eq]
  exact hn.resolve_left fun hm => List.not_mem_nil hm.2

/-- generation fails for a fault of the template -/
theorem fault_of_generate (hw : t.Whole) {e : GenerationError} (h : t.generate casing = .error e) : t.Fault e.cause := by
  cases hh : t.inventory.duplicateHelpers with
  | cons name names =>
    have hn : name ∈ t.inventory.duplicateHelpers := hh ▸ List.mem_cons_self
    simp only [generate, hh] at h
    cases h
    exact .duplicateHelper (two_le_count hw declaredHelper?_eq hn)
  | nil =>
    cases hs : t.inventory.duplicateSections with
    | cons name names =>
      have hn : name ∈ t.inventory.duplicateSections := hs ▸ List.mem_cons_self
      simp only [generate, hh, hs] at h
      cases h
      exact .duplicateSection (two_le_count hw declaredSection?_eq hn)
    | nil =>
      have hf := generate_follows casing hh hs
      have hc := checks_sitedAll casing .empty t.segments
      cases hr : sitedAll casing .empty t.segments with
      | ok r =>
        rw [hr] at hf
        obtain ⟨g, hg, -⟩ := hf
        cases hg.symm.trans h
      | error c =>
        rw [hr] at hf hc
        obtain ⟨e', he, rfl⟩ := hf
        cases he.symm.trans h
        obtain ⟨o, ho, hfault⟩ := hc
        exact .occurrence ho hfault

/-- a template with a fault has no programs -/
theorem Fault.generate {c : GenerationCause} (hc : t.Fault c) (hw : t.Whole) (casing : Casing) :
    ∃ e, t.generate casing = .error e := by
  cases hg : t.generate casing with
  | error e => exact ⟨e, rfl⟩
  | ok g =>
    exfalso
    obtain ⟨hh, hs⟩ := View.nodup_of_generate hw hg
    cases hc with
    | duplicateHelper h => exact absurd (h.trans (List.nodup_iff_count_le_one.1 hh _)) (by decide)
    | duplicateSection h => exact absurd (h.trans (List.nodup_iff_count_le_one.1 hs _)) (by decide)
    | occurrence ho h =>
      obtain ⟨r, hr, -⟩ := Template.generate_eq hg
      have hcheck := checks_sitedAll casing .empty t.segments
      rw [hr] at hcheck
      exact hcheck.2 _ ho _ h

end Template

/-! ## Compilation -/

/-- the generator itself has failed, whatever names the template declares -/
def GenerationCause.isInternal : GenerationCause → Bool
  | .invalidLiteral _ => true
  | .unsupportedUnary _ => true
  | .unsupportedOperator _ => true
  | .strayMarkup _ => true
  | .reported _ => true
  | _ => false

/-- the operators that a source writes beside an operand are known to the generator -/
theorem unary_known {operator : String} (h : operator ∈ "new" :: Grammar.frontOperators) :
    UnaryOperator.ofText? operator ≠ none ∨ Step.ofText? operator ≠ none := by
  have hall : ∀ s ∈ "new" :: Grammar.frontOperators, UnaryOperator.ofText? s ≠ none ∨ Step.ofText? s ≠ none := by
    decide
  exact hall operator h

/-- the operators that a source writes between two operands are known to the generator, or combine the old value of a
variable with the new one as one of those does -/
theorem binary_known {operator : String} (h : operator ∈ Grammar.binaryLevels.flatten ++ Grammar.assignmentOperators)
    (hn : BinaryOperator.ofText? operator = none) :
    ∃ compound, compound? operator = some compound ∧ (compound = "" ∨ BinaryOperator.ofText? compound ≠ none) := by
  have hall : ∀ s ∈ Grammar.binaryLevels.flatten ++ Grammar.assignmentOperators, BinaryOperator.ofText? s = none →
      ∃ compound ∈ compound? s, compound = "" ∨ BinaryOperator.ofText? compound ≠ none := by
    decide
  exact hall operator h hn

/-- no fault of a formed node is the generator's own -/
theorem Event.Fault.not_internal {isLocal : String → Bool} {ev : Event} {c : GenerationCause} (h : ev.Fault isLocal c)
    (hf : ev.Formed) : c.isInternal = false := by
  cases h with
  | invalidLiteral hnone =>
    obtain ⟨v, hv, -⟩ := hf
    cases hnone.symm.trans hv
  | calledLocal => rfl
  | notCallable => rfl
  | unsupportedUnary ho hs => exact ((unary_known hf).elim (· ho) (· hs)).elim
  | updateTarget => rfl
  | unsupportedOperator ho hc =>
    obtain ⟨compound, hcompound, -⟩ := binary_known hf ho
    cases hc.symm.trans hcompound
  | assignTarget => rfl
  | unsupportedCompound ho hc hne hn _ =>
    obtain ⟨compound, hcompound, hknown⟩ := binary_known hf ho
    cases hc.symm.trans hcompound
    exact (hknown.elim hne (· hn)).elim

/-- where all nodes are formed, no fault is the generator's own -/
theorem Template.Fault.not_internal {t : Template} {c : GenerationCause} (hc : t.Fault c)
    (hf : ∀ s ∈ t.segments, s.Formed) : c.isInternal = false := by
  cases hc with
  | duplicateHelper => rfl
  | duplicateSection => rfl
  | @occurrence o c ho h =>
    obtain ⟨ev, hev, h⟩ := h
    exact h.not_internal (Event.formed_ofSegments.2 hf _ (Occurrence.among_ofSegments .empty t.segments o ho hev))

namespace View

/-- a parsed source is refused as its template is -/
theorem compile_eq_error {options : Options} {source : String} {t : Template} (h : Template.parse source = .ok t)
    {e : GenerationError} :
    compile options source = .error (.generation e) ↔ t.generate options.casing = .error e := by
  unfold compile
  simp only [h]
  cases t.generate options.casing <;> simp

/-- **Refused templates have faults.** For every source that parses and all options, generation fails only for a helper or
a section declared twice, a call of a declared local or of something that is neither a name nor a member, an update of or
an assignment to something that is not a declared local, each found in the template; and it does fail where there is such
a fault. It never fails for markup where code stands, for a literal without a value, or for an operator that is not in its
tables. -/
theorem refused_for_faults {source : String} {t : Template} (h : Template.parse source = .ok t) (options : Options) :
    (∀ e, compile options source = .error (.generation e) → t.Fault e.cause ∧ e.cause.isInternal = false) ∧
    ∀ c, t.Fault c → ∃ e, compile options source = .error (.generation e) := by
  have hformed := Grammar.formed_parse h
  have hwhole := Grammar.whole_parse h
  refine ⟨fun e he => ?_, fun c hc => ?_⟩
  · have hfault := Template.fault_of_generate hwhole ((compile_eq_error h).1 he)
    exact ⟨hfault, hfault.not_internal hformed⟩
  · obtain ⟨e, he⟩ := hc.generate hwhole options.casing
    exact ⟨e, (compile_eq_error h).2 he⟩

/-- the variable of a loop is called like the helper that its body calls too -/
def miscalled : String :=
  "@helper show(x)\x7b<b>@x.name</b>\x7d@foreach(var item in items)\x7b<p title='@item(-2)'>@show(item)</p>\x7d"

theorem refused_for_faults_miscalled :
    ∃ t e, Template.parse miscalled = .ok t ∧ compile .default miscalled = .error (.generation e) ∧
      e.cause = .calledLocal "item" ∧ t.Fault (.calledLocal "item") := by
  obtain ⟨t, ht, -⟩ := exists_ok (x := Template.parse miscalled) (p := fun _ => true) (by decide +kernel)
  have hrun : (match compile .default miscalled with
      | .error (.generation e) => e.cause == .calledLocal "item"
      | _ => false) = true := by decide +kernel
  split at hrun
  · next e he =>
    have hcause : e.cause = .calledLocal "item" := by simpa using hrun
    obtain ⟨hfault, -⟩ := (refused_for_faults ht .default).1 e he
    exact ⟨t, e, ht, he, hcause, hcause ▸ hfault⟩
  · cases hrun

end View

end TemplateView
