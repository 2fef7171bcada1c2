/-
Compiling keeps the meaning of a template. `compile_meaning` says that a compiled view renders as the walk of the parsed
template does: the same markup, the same error, or no end, for every model, context and number of steps and with every
helper of a host. Sections and calls of helpers agree in the same way.
-/
import TemplateView.Proofs.Meaning.Lowering

namespace TemplateView

open Execution Generation

/-! ## Bodies -/

/-- two executions that start alike and end alike write the same markup -/
theorem sim_html {Q : Unit → Unit → Run → Run → Prop} {initial : Table Value} {m m' : Execution Unit}
    (h : Sim Q (m { Run.start with scopes := [initial] }) (m' { Run.start with scopes := [initial] }))
    (hQ : ∀ s s', Q () () s s' → s'.html = s.html) : html initial m = html initial m' := by
  rw [html_eq, html_eq]
  unfold Sim at h
  cases hm : m { Run.start with scopes := [initial] } with
  | ok p =>
    cases hm' : m' { Run.start with scopes := [initial] } with
    | ok p' => rw [hm, hm'] at h; exact congrArg Except.ok (hQ p.2 p'.2 h).symm
    | error e => rw [hm, hm'] at h; exact h.elim
  | error e =>
    cases hm' : m' { Run.start with scopes := [initial] } with
    | ok p' => rw [hm, hm'] at h; exact h.elim
    | error e' => rw [hm, hm'] at h; exact congrArg Except.error h

/-- a lowered body, started in one scope with the declared variables, writes what its walk writes -/
theorem html_walk {casing : Casing} {names : Names} {ss : List Segment} {r : List (SitedOp casing) × Names}
    (h : sitedAll casing names ss = .ok r) (env : Surroundings) {initial : Table Value} (hf : names.Fits [initial]) :
    (SitedOp.program r.1).run env initial = html initial (Segment.walkAll casing env ss) := by
  have hs : Mirrors [] none names { Run.start with scopes := [initial] } { Run.start with scopes := [initial] } :=
    ⟨⟨rfl, rfl, rfl, rfl, Nat.zero_lt_one⟩, hf⟩
  have hm : ([] : List Bool).head? ≠ some true := nofun
  have hd : SitedOp.Does env [] names r.2 (Segment.walkAll casing env ss) r.1 := does_segments hm h
  have hd := hd _ _ hs
  rw [← execAll_packed] at hd
  exact (sim_html hd fun _ _ ht => ht.mirror.html).symm

theorem run_fragment {casing : Casing} {d : Declared} (hd : d.Lowered casing) (env : Surroundings)
    (arguments : List Value) : (d.fragment casing).run env arguments = d.walk casing env arguments := by
  obtain ⟨r, hr⟩ := hd
  have hs : d.sited casing = r.1 := by rw [Declared.sited, hr]
  rw [Fragment.run, Declared.fragment, hs]
  exact html_walk hr env (Names.fits_arguments d.parameters arguments)

/-! ## Calls -/

namespace View

variable {v : View} {options : Options} {t : Template} {hosts : List (String × Host)}

/-- a call by name means the same in the view and in the template, if calls of declared bodies do -/
theorem Serves.call_eq (hv : v.Serves options.casing t hosts) {context : Context}
    {invoke : String → Fragment → List Value → Except Halt Value} {walk : Declared → List Value → Except Halt Value}
    (hi : ∀ d ∈ declaredAll t.segments, ∀ arguments, invoke d.name (d.fragment options.casing) arguments = walk d arguments)
    (name : String) (arguments : List Value) :
    v.callWith context invoke name arguments = t.call hosts context walk name arguments := by
  unfold callWith Template.call
  cases builtin? context name arguments with
  | some result => rfl
  | none =>
    rw [hv.helper name]
    cases (Table.ofList hosts).get? name with
    | some f => rfl
    | none =>
      cases hd : t.helper? name with
      | none => rfl
      | some d =>
        obtain ⟨hmem, rfl⟩ := Template.helper?_spec hd
        exact hi d hmem arguments

/-- a declared body runs as it is walked, however deep calls may nest -/
theorem Serves.invoke_eq (hv : v.Serves options.casing t hosts) (hn : v.maxCallDepth = options.maxCallDepth)
    (o : Occasion) (left : Nat) : ∀ d ∈ declaredAll t.segments, ∀ arguments,
      v.invoke o left d.name (d.fragment options.casing) arguments = t.invoke options hosts o left d arguments := by
  induction left with
  | zero =>
    intro d _ arguments
    rw [invoke, Template.invoke, hn]
  | succ left ih =>
    intro d hd arguments
    have hc : v.callWith o.context (v.invoke o left) = t.call hosts o.context (t.invoke options hosts o left) :=
      funext fun name => funext fun arguments => hv.call_eq ih name arguments
    rw [invoke, Template.invoke, hc, run_fragment (hv.lowered d hd)]

theorem Serves.surroundings_eq (hv : v.Serves options.casing t hosts) (hn : v.maxCallDepth = options.maxCallDepth)
    (o : Occasion) : v.surroundings o = t.surroundings options hosts o := by
  have hc : v.callWith o.context (v.invoke o v.maxCallDepth) =
      t.call hosts o.context (t.invoke options hosts o options.maxCallDepth) := by
    rw [hn]
    exact funext fun name => funext fun arguments => hv.call_eq (hv.invoke_eq hn o options.maxCallDepth) name arguments
  rw [surroundings, Template.surroundings, hc]

/-! ## Views -/

theorem Serves.renderWith_eq (hv : v.Serves options.casing t hosts) (hn : v.maxCallDepth = options.maxCallDepth)
    (steps : Nat) (model : Json) (context : Context) :
    v.renderWith steps model context = t.render options hosts steps model context := by
  obtain ⟨r, hr, hp⟩ := hv.program
  have hf : Names.empty.Fits [([] : Table Value)] := ⟨fun _ => Iff.rfl, nofun⟩
  rw [renderWith, Template.render, hv.surroundings_eq hn, hp]
  exact html_walk hr _ hf

theorem Serves.renderSection_eq (hv : v.Serves options.casing t hosts) (hn : v.maxCallDepth = options.maxCallDepth)
    (steps : Nat) (model : Json) (name : String) :
    v.renderSection steps model name = t.renderSection options hosts steps model name := by
  unfold renderSection Template.renderSection
  rw [hv.sections name]
  cases hd : t.section? name with
  | none => rfl
  | some d =>
    obtain ⟨hmem, rfl⟩ := Template.section?_spec hd
    simp only [Option.map_some]
    rw [hn, hv.invoke_eq hn _ _ d hmem]

/-- **Compiling keeps the meaning.** A compiled view with helpers of a host gives what the walk of the parsed template
gives, for every number of steps that bounds both: the same markup, the same error, or neither of them ends within it. -/
theorem compile_meaning {options : Options} {source : String} {view : View} (h : compile options source = .ok view) :
    ∃ t, Template.parse source = .ok t ∧ ∀ (hosts : List (String × Host)) (steps : Nat) (model : Json),
      (∀ context, (view.registerAll hosts).renderWith steps model context =
        t.render options hosts steps model context) ∧
      (∀ name, (view.registerAll hosts).renderSection steps model name =
        t.renderSection options hosts steps model name) ∧
      ∀ name arguments, (view.registerAll hosts).callHelper steps model name arguments =
        t.callHelper options hosts steps model name arguments := by
  obtain ⟨t, ht, hof, hd⟩ := compile_of h
  refine ⟨t, ht, fun hosts steps model => ?_⟩
  have hv := hof.serves hosts
  have hn : (view.registerAll hosts).maxCallDepth = options.maxCallDepth := by rw [registerAll_eq]; exact hd
  refine ⟨hv.renderWith_eq hn steps model, hv.renderSection_eq hn steps model, fun name arguments => ?_⟩
  rw [callHelper, Template.callHelper, hv.surroundings_eq hn]

/-- a helper that calls itself, a loop, an `else if`, a compound assignment and an attribute -/
def countdown : String :=
  "@helper down(n)\x7b@if(n > 0)\x7b<i class=\"a @kind\">@n</i>@down(n - 1)\x7d\x7d" ++
    "@for(var i = 1; i < 3; i += 1)\x7b@if(i == 1)\x7b@down(i)\x7delse if(i == 2)\x7b<b>@title</b>\x7d\x7d"

theorem compile_meaning_countdown :
    ∃ view, compile .default countdown = .ok view ∧ ∃ t, Template.parse countdown = .ok t ∧
      ∀ context, (view.registerAll []).renderWith 9 .null context = t.render .default [] 9 .null context := by
  obtain ⟨view, h, -⟩ := exists_ok (x := compile .default countdown) (p := fun _ => true) (by decide +kernel)
  obtain ⟨t, ht, hm⟩ := compile_meaning h
  exact ⟨view, h, t, ht, (hm [] 9 .null).1⟩

end View

end TemplateView
