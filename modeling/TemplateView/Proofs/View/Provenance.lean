/-
Raw markup has no source but the template. A template that calls no builtin, in a view to which no host has added
helpers, writes markup of its own and escaped text, and nothing else; a model cannot add to the markup. The statement
covers all that a view renders: its program, its sections and calls of its helpers.
-/
import TemplateView.Proofs.Generation.Origins
import TemplateView.Proofs.Run.Provenance
import TemplateView.Proofs.View.Hosts

namespace TemplateView

open Generation

/-- the programs of a view write its own markup and bring in no other -/
structure View.Sourced (v : View) : Prop where
  ops : ∀ o ∈ v.ops, o.Sourced v.markup
  /-- no helper is a host's -/
  helpers : ∀ {name : String} {x : Helper}, v.helpers.get? name = some x → ∃ f ∈ v.fragments, x = .declared f

/-- a lowering of nodes that call no builtin brings in no markup -/
theorem entails_bringsNone (casing : Casing) :
    Entails casing (Event.Calls fun name => name ∉ Inventory.builtins) fun e => e.Every Expr.BringsNone := by
  intro names source e h hs
  refine Expr.Every.mono (fun x hx => ?_) e (lowered_expression h hs)
  cases x <;> first | exact hx | trivial

namespace View

variable {v : View}

/-- a view of a template without calls of builtins brings in no markup -/
theorem Of.sourced {casing : Casing} {t : Template} (h : v.Of casing t)
    (hc : ∀ name ∈ Inventory.builtins, name ∉ v.inventory.helpersCalled) : v.Sourced := by
  have hq : Event.All (Event.Calls fun name => name ∉ Inventory.builtins)
      (Event.ofSegments (fun _ => true) t.segments) := by
    intro e he name hn hb
    refine hc name hb ?_
    rw [h.inventory]
    exact mem_sortNames.2 (List.mem_filterMap.2 ⟨e, he, hn⟩)
  have hnone := h.holds (entails_bringsNone casing) hq
  exact ⟨fun o ho => ⟨fun s hs => List.mem_flatMap.2 ⟨o, ho, hs⟩, hnone o ho⟩, h.declared⟩

/-! ## Calls -/

/-- a fragment writes assembled markup for arguments with assembled markup -/
theorem assembled_fragment (hv : v.Sourced) {f : Fragment} (hf : f ∈ v.fragments) {env : Surroundings}
    (henv : env.Sourced v.markup) {arguments : List Value} (ha : ∀ a ∈ arguments, a.RawsAre (Assembled v.markup))
    {html : String} (h : f.run env arguments = .ok html) : Assembled v.markup html := by
  refine assembled_run henv (fun o ho => hv.ops o (mem_ops_of_fragment hf ho)) (fun p hp => ?_) h
  have hm := List.of_mem_zip (Table.mem_of_mem_ofList hp)
  rcases List.mem_append.1 hm.2 with hm | hm
  · exact ha p.2 hm
  · rw [List.eq_of_mem_replicate hm]; exact Value.rawsAre_null

/-- what calls by name give, if calls of declared helpers give assembled markup -/
theorem sourced_callWith (hv : v.Sourced) {o : Occasion} (hm : o.model.RawsAre (Assembled v.markup))
    {invoke : String → Fragment → List Value → Except Halt Value}
    (hi : ∀ name f arguments value, f ∈ v.fragments → (∀ a ∈ arguments, a.RawsAre (Assembled v.markup)) →
      invoke name f arguments = .ok value → ∃ html, value = .raw html ∧ Assembled v.markup html) :
    Surroundings.Sourced v.markup ⟨o.model, v.callWith o.context invoke, o.steps⟩ ∧
      ∀ name arguments value, name ∉ Inventory.builtins → (∀ a ∈ arguments, a.RawsAre (Assembled v.markup)) →
        v.callWith o.context invoke name arguments = .ok value →
        ∃ html, value = .raw html ∧ Assembled v.markup html := by
  have key : ∀ name arguments value, name ∉ Inventory.builtins →
      (∀ a ∈ arguments, a.RawsAre (Assembled v.markup)) → v.callWith o.context invoke name arguments = .ok value →
      ∃ html, value = .raw html ∧ Assembled v.markup html := by
    intro name arguments value hn ha hc
    rw [callWith, builtin?_eq_none_iff.2 hn] at hc
    cases hx : v.helpers.get? name with
    | none => rw [hx] at hc; cases hc
    | some x =>
      obtain ⟨f, hf, rfl⟩ := hv.helpers hx
      rw [hx] at hc
      exact hi name f arguments value hf ha hc
  refine ⟨⟨hm, fun name arguments value hn ha hc => ?_⟩, key⟩
  obtain ⟨html, rfl, hh⟩ := key name arguments value hn ha hc
  exact Value.rawsAre_raw.2 hh

/-- calls give assembled markup, however deep they nest -/
theorem assembled_invoke (hv : v.Sourced) {o : Occasion} (hm : o.model.RawsAre (Assembled v.markup)) (left : Nat) :
    ∀ name f arguments value, f ∈ v.fragments → (∀ a ∈ arguments, a.RawsAre (Assembled v.markup)) →
      v.invoke o left name f arguments = .ok value → ∃ html, value = .raw html ∧ Assembled v.markup html := by
  induction left with
  | zero => exact fun _ _ _ _ _ _ h => nomatch h
  | succ left ih =>
    intro name f arguments value hf ha h
    rw [invoke, bind_eq_ok] at h
    obtain ⟨html, hr, ⟨⟩⟩ := h
    exact ⟨html, rfl, assembled_fragment hv hf (sourced_callWith hv hm ih).1 ha hr⟩

/-- **Raw markup has no source but the template.** A view compiled from a template that calls no builtin writes, for
every model, only pieces of its own markup, the spaces between parts of attributes, and escaped text. The same holds of
its sections, and of its helpers for arguments without raw markup. Escaped text ends no text and no attribute value. -/
theorem markup_from_template {options : Options} {source : String} {view : View}
    (h : compile options source = .ok view) (hc : ∀ name ∈ Inventory.builtins, name ∉ view.inventory.helpersCalled)
    (steps : Nat) (model : Json) :
    (∀ context html, view.renderWith steps model context = .ok html → Assembled view.markup html) ∧
    (∀ name html, view.renderSection steps model name = .ok html → Assembled view.markup html) ∧
    (∀ name arguments value, name ∉ Inventory.builtins → (∀ a ∈ arguments, a.raws = []) →
      view.callHelper steps model name arguments = .ok value →
      ∃ html, value = .raw html ∧ Assembled view.markup html) ∧
    ∀ s, ∀ c ∈ (escapeHtml s).toList, c ∉ delimiters := by
  obtain ⟨t, -, hof, -⟩ := compile_of h
  have hv := hof.sourced hc
  have hm : (Value.ofJson model).RawsAre (Assembled view.markup) := Value.rawsAre_of_raws_eq_nil (Value.raws_ofJson model)
  refine ⟨?_, ?_, ?_, fun s c hc => escapeHtml_not_delimiter hc⟩
  · intro context html hr
    have hi := assembled_invoke (o := ⟨.ofJson model, context, steps⟩) hv hm view.maxCallDepth
    have henv := (sourced_callWith (o := ⟨.ofJson model, context, steps⟩) hv hm hi).1
    have hi : ∀ p ∈ ([] : Table Value), p.2.RawsAre (Assembled view.markup) := by
      intro p hp
      cases hp
    exact assembled_run henv (fun o ho => hv.ops o (List.mem_append_left _ ho)) hi hr
  · intro name html hr
    unfold renderSection at hr
    split at hr
    · cases hr; exact assembled_empty
    · next f hf =>
      rw [bind_eq_ok] at hr
      obtain ⟨value, hi, ⟨⟩⟩ := hr
      have hmem := mem_fragments_of_section hf
      obtain ⟨html, rfl, hh⟩ := assembled_invoke hv hm view.maxCallDepth name f [] value hmem (by simp) hi
      exact hh
  · intro name arguments value hn ha hr
    have ha : ∀ a ∈ arguments, a.RawsAre (Assembled view.markup) :=
      fun a h => Value.rawsAre_of_raws_eq_nil (ha a h)
    have hi := assembled_invoke (o := .ofModel steps model) hv hm view.maxCallDepth
    exact (sourced_callWith (o := .ofModel steps model) hv hm hi).2 name arguments value hn ha hr

/-- rows of a list, each by a call of a helper that writes its argument in an attribute and as text -/
def rows : String :=
  "@helper row(x) \x7b<li title='a @x'>@x</li>\x7d<ul>@foreach(var n in names)\x7b@row(n)\x7d</ul>"

theorem markup_from_template_rows :
    ∃ view, compile .default rows = .ok view ∧
      (∀ name ∈ Inventory.builtins, name ∉ view.inventory.helpersCalled) ∧
      Assembled view.markup "<ul><li title='a &lt;b&gt;'>&lt;b&gt;</li></ul>" ∧
      ∃ html, view.callHelper 9 .null "row" [.string "'"] = .ok (.raw html) ∧ Assembled view.markup html := by
  obtain ⟨view, h, hv⟩ := exists_ok (x := compile .default rows)
    (p := fun view => decide ((∀ name ∈ Inventory.builtins, name ∉ view.inventory.helpersCalled) ∧
      (view.renderWith 9 (.object [("names", .array [.string "<b>"])]) .empty).toOption.any
        (· == "<ul><li title='a &lt;b&gt;'>&lt;b&gt;</li></ul>") ∧
      (view.callHelper 9 .null "row" [.string "'"]).toOption.any fun _ => true)) (by decide +kernel)
  rw [decide_eq_true_eq] at hv
  obtain ⟨hc, hr, hs⟩ := hv
  obtain ⟨html, hr, he⟩ := exists_ok hr
  obtain ⟨value, hs, -⟩ := exists_ok hs
  have hm := (markup_from_template h hc 9 _).1 _ _ hr
  obtain ⟨row, rfl, ha⟩ := (markup_from_template h hc 9 .null).2.2.1 "row" [.string "'"] value (by decide) (by decide) hs
  exact ⟨view, h, hc, beq_iff_eq.1 he ▸ hm, row, hs, ha⟩

end View

end TemplateView
