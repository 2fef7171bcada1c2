/-
What the text of a program tells of it. An operator in front of an operand is written without parentheses, so two
expressions of a view can have one text and two behaviours (`twice_alike`). Of clear expressions the text tells all: those
with the same text are evaluated alike (`eval_eq_of_source`), for what the grammar takes as names are words and what it
takes as literals are values that their texts determine.
-/
import TemplateView.Proofs.Generation.Origins
import TemplateView.Proofs.Grammar.Formed
import TemplateView.Proofs.Program.Readback

namespace TemplateView

open Generation

/-! ## Names of a compiled view -/

/-- where names are taken over as they are written, the lowering of a formed node has words as its names -/
theorem carries_named {n : Naming} (h : n.casing = .identity) : n.Carries Event.Formed Expr.Named := by
  obtain ⟨casing, isLocal⟩ := n
  cases h
  refine ⟨fun {name p} h => ?_, fun h => h, fun {raw v} h hv => ?_, fun _ h => h.1, fun h => h, fun h _ => h.1,
    fun h _ => h.1, fun {x} h => by cases x <;> trivial⟩
  · have h : IsWord name ∧ name ∉ ["true", "false", "null"] := h
    unfold Naming.resolve
    split
    · exact h
    split
    · trivial
    · exact h.1
  · obtain ⟨w, hw, hl⟩ : IsLiteral raw := h
    cases hw.symm.trans hv
    exact hl

namespace View

/-- the names in a compiled view are words, and its constants are those of literals -/
theorem named_of_compile {options : Options} (ho : options.casing = .identity) {source : String} {view : View}
    (h : compile options source = .ok view) {e : Expr} (he : e ∈ view.nodes) : e.Every Expr.Named := by
  obtain ⟨t, ht, hof, -⟩ := compile_of h
  have hl : Entails options.casing Event.Formed fun x => x.Every Expr.Named :=
    fun hx hs => every_expression (carries_named ho) hx hs
  have hroots := hof.holds hl (Event.formed_ofSegments.2 (Grammar.formed_parse ht))
  obtain ⟨op, hop, he⟩ := List.mem_flatMap.1 he
  obtain ⟨x, hx, he⟩ := List.mem_flatMap.1 he
  exact (Expr.every_iff x).1 (Expr.Every.inside x (hroots op hop x hx)) e he

/-! ## Texts and behaviour -/

/-- **The text of a clear expression tells its behaviour.** Take an expression of one compiled view and one of another, or
of the same, both clear and with the same text. On every model that is an object they have the same value or the same
error in every state of a run, and leave the variables the same. -/
theorem eval_eq_of_source {source source' : String} {view view' : View} (h : compile .default source = .ok view)
    (h' : compile .default source' = .ok view') {e e' : Expr} (he : e ∈ view.nodes) (he' : e' ∈ view'.nodes)
    (hc : e.Every Expr.Clear) (hc' : e'.Every Expr.Clear) (hs : e.source = e'.source) {env : Surroundings}
    {members : List (String × Value)} (hm : env.model = .object members) : e.eval env = e'.eval env := by
  have hn := named_of_compile rfl h he
  have hn' := named_of_compile rfl h' he'
  rw [← Expr.eval_normal hm e, ← Expr.eval_normal hm e', Expr.normal_eq_of_source hn hc hn' hc' hs]

/-- a property, as a member of the model and by its bare name -/
def rates : String := "@\x7bvar n = 0;\x7d@(n++ + model.rate[!n])"

def ratesByName : String := "@helper show(n) \x7b@(n++ + rate[!n])\x7d"

theorem eval_eq_of_source_rates :
    ∃ view view' e e', compile .default rates = .ok view ∧ compile .default ratesByName = .ok view' ∧ e ∈ view.nodes ∧
      e' ∈ view'.nodes ∧ e ≠ e' ∧ e.source = e'.source ∧ e.Every Expr.Clear ∧ e'.Every Expr.Clear ∧
      e.eval ⟨.object [("rate", .array [])], fun _ _ => .ok .null, 9⟩ =
        e'.eval ⟨.object [("rate", .array [])], fun _ _ => .ok .null, 9⟩ := by
  obtain ⟨view, h, hv⟩ := exists_ok (x := compile .default rates)
    (p := fun view => (compile .default ratesByName).toOption.any fun view' =>
      view.nodes.any fun e => view'.nodes.any fun e' =>
        e.source == "(n++ + model.rate[!n])" && e.nodes.length != e'.nodes.length && e.source == e'.source &&
          e.Every Expr.Clear && e'.Every Expr.Clear) (by decide +kernel)
  obtain ⟨view', h', hv'⟩ := exists_ok hv
  obtain ⟨e, he, hx⟩ := List.any_eq_true.1 hv'
  obtain ⟨e', he', hx'⟩ := List.any_eq_true.1 hx
  simp only [Bool.and_eq_true, bne_iff_ne, beq_iff_eq, decide_eq_true_eq] at hx'
  obtain ⟨⟨⟨⟨-, hne⟩, hs⟩, hc⟩, hc'⟩ := hx'
  exact ⟨view, view', e, e', h, h', he, he', fun heq => hne (congrArg _ (congrArg _ heq)), hs, hc, hc',
    eval_eq_of_source h h' he he' hc hc' hs rfl⟩

/-- a variable negated twice, and counted down -/
def twice : String := "@\x7bvar x = 1;\x7d@(- -x)@(--x)"

/-- one text for two behaviours -/
theorem twice_alike :
    ∃ view, compile .default twice = .ok view ∧ ∃ e ∈ view.nodes, ∃ e' ∈ view.nodes, e.source = e'.source ∧
      ∃ r, e.eval ⟨.object [], fun _ _ => .ok .null, 1⟩ r ≠ e'.eval ⟨.object [], fun _ _ => .ok .null, 1⟩ r := by
  obtain ⟨view, h, hv⟩ := exists_ok (x := compile .default twice)
    (p := fun view => view.nodes.any fun e => view.nodes.any fun e' =>
      e.source == e'.source &&
        (e.eval ⟨.object [], fun _ _ => .ok .null, 1⟩ ⟨[[("x", .number 1)]], "", none⟩).toOption.map (·.1.text) !=
          (e'.eval ⟨.object [], fun _ _ => .ok .null, 1⟩ ⟨[[("x", .number 1)]], "", none⟩).toOption.map (·.1.text))
    (by decide +kernel)
  obtain ⟨e, he, hx⟩ := List.any_eq_true.1 hv
  obtain ⟨e', he', hx'⟩ := List.any_eq_true.1 hx
  rw [Bool.and_eq_true, beq_iff_eq, bne_iff_ne] at hx'
  exact ⟨view, h, e, he, e', he', hx'.1, ⟨[[("x", .number 1)]], "", none⟩,
    fun heq => hx'.2 (congrArg (fun x => x.toOption.map fun y => y.1.text) heq)⟩

end View

end TemplateView
