/-
Static and run-time scopes agree. The generator declares names while it lowers a template, and a run declares variables
while it goes; `scopes_agree` says that whenever a run evaluates an expression, its variables are exactly the names that
were declared where the expression was lowered. This holds in the program, in sections and in helpers however deep they
call each other, so no variable is ever missed, and no name that was taken for a property of the model hides one.
-/
import TemplateView.Proofs.Run.Watched
import TemplateView.Proofs.View.Hosts

namespace TemplateView

open Execution Generation

/-! ## Views under watch -/

/-- the main operations of a template with their sites, none where it cannot be lowered -/
def Template.sited (casing : Casing) (t : Template) : List (SitedOp casing) :=
  match sitedAll casing .empty t.segments with
  | .ok r => r.1
  | .error _ => []

/-- the markup of a declared body for some arguments, under watch -/
def Generation.Declared.watched (casing : Casing) (alarm : Halt) (env : Surroundings) (d : Declared)
    (arguments : List Value) : Except Halt String :=
  html (Table.ofList (d.parameters.zip (arguments ++ List.replicate d.parameters.length .null)))
    (SitedOp.execAll alarm env (d.sited casing))

namespace View

variable (v : View) (casing : Casing) (t : Template) (alarm : Halt)

/-- the value of a declared body for some arguments when calls may nest `left` levels deeper, all of it under watch -/
def watchedInvoke (o : Occasion) : Nat → Declared → List Value → Except Halt Value
  | 0, d, _ => .error (.error (.recursionLimit d.name v.maxCallDepth))
  | left + 1, d, arguments => do
    let call := v.callWith o.context fun name _ arguments =>
      match t.helper? name with
      | some d => watchedInvoke o left d arguments
      | none => .error alarm
    return .raw (← d.watched casing alarm ⟨o.model, call, o.steps⟩ arguments)

/-- what the outermost programs of a view see, with calls under watch -/
def watchedSurroundings (o : Occasion) : Surroundings :=
  let call := v.callWith o.context fun name _ arguments =>
    match t.helper? name with
    | some d => v.watchedInvoke casing t alarm o v.maxCallDepth d arguments
    | none => .error alarm
  ⟨o.model, call, o.steps⟩

def watchedRender (steps : Nat) (model : Json) (context : Context) : Except Halt String :=
  html [] (SitedOp.execAll alarm (v.watchedSurroundings casing t alarm ⟨.ofJson model, context, steps⟩) (t.sited casing))

def watchedSection (steps : Nat) (model : Json) (name : String) : Except Halt String :=
  match t.section? name with
  | none => .ok ""
  | some d => do return (← v.watchedInvoke casing t alarm (.ofModel steps model) v.maxCallDepth d []).text

def watchedCall (steps : Nat) (model : Json) (name : String) (arguments : List Value) : Except Halt Value :=
  (v.watchedSurroundings casing t alarm (.ofModel steps model)).call name arguments

variable {v casing t} {hosts : List (String × Host)}

/-! ## Calls -/

/-- a host whose helpers do not speak of variables of the template -/
def FindAll (hosts : List (String × Host)) : Prop := ∀ p ∈ hosts, ∀ arguments, FindsAll (p.2 arguments)

/-- a declared body runs under watch as it does without -/
theorem watched_eq {env : Surroundings} (henv : env.Reports Halt.Defined) {d : Declared} (hd : d.Lowered casing)
    (arguments : List Value) :
    d.watched casing alarm env arguments = (d.fragment casing).run env arguments ∧
      ∀ h, (d.fragment casing).run env arguments = .error h → h.Defined := by
  obtain ⟨r, hr⟩ := hd
  have hs : d.sited casing = r.1 := by rw [Declared.sited, hr]
  have hu := sitedAll_unseen henv hr alarm
    { Run.start with scopes := [Table.ofList (d.parameters.zip (arguments ++ List.replicate d.parameters.length .null))] }
    (Names.fits_arguments d.parameters arguments)
  have hh := alike_html hu
  rw [← execAll_packed, ← hs] at hh
  exact hh

theorem findsAll_builtin {context : Context} {name : String} {arguments : List Value}
    {result : Except RenderError Value} (h : builtin? context name arguments = some result) : FindsAll result := by
  intro e he x hm
  subst he
  obtain ⟨_, rfl⟩ := builtin?_eq_error h
  cases hm

theorem defined_ofError {α : Type} {x : Except RenderError α} (hx : FindsAll x) {h : Halt}
    (hh : Halt.ofError x = .error h) : h.Defined := by
  cases x with
  | ok a => cases hh
  | error e => cases hh; exact hx e rfl

/-- calls by name under watch are calls by name, if calls of declared bodies are -/
theorem callWith_watched (hv : v.Serves casing t hosts) (hh : FindAll hosts) (context : Context)
    {invoke : String → Fragment → List Value → Except Halt Value} {watched : Declared → List Value → Except Halt Value}
    (hi : ∀ d ∈ declaredAll t.segments, ∀ arguments, watched d arguments = invoke d.name (d.fragment casing) arguments ∧
      ∀ h, invoke d.name (d.fragment casing) arguments = .error h → h.Defined) (name : String) (arguments : List Value) :
    v.callWith context (fun name _ arguments =>
        match t.helper? name with
        | some d => watched d arguments
        | none => .error alarm) name arguments = v.callWith context invoke name arguments ∧
      ∀ h, v.callWith context invoke name arguments = .error h → h.Defined := by
  unfold callWith
  cases hb : builtin? context name arguments with
  | some result => exact ⟨rfl, fun h he => defined_ofError (findsAll_builtin hb) he⟩
  | none =>
    rw [hv.helper name]
    cases hf : (Table.ofList hosts).get? name with
    | some f =>
      have hm := Table.mem_of_mem_ofList (Table.mem_of_get? hf)
      exact ⟨rfl, fun h he => defined_ofError (hh _ hm arguments) he⟩
    | none =>
      cases hd : t.helper? name with
      | none =>
        refine ⟨rfl, ?_⟩
        intro h hx x h₀
        cases hx
        cases h₀
      | some d =>
        obtain ⟨hmem, rfl⟩ := Template.helper?_spec hd
        exact ⟨by simp only [Option.map_some, hd]; exact (hi d hmem arguments).1, (hi d hmem arguments).2⟩

/-- calls under watch are calls, however deep they nest -/
theorem invoke_watched (hv : v.Serves casing t hosts) (hh : FindAll hosts) (o : Occasion) (left : Nat) :
    ∀ d ∈ declaredAll t.segments, ∀ arguments,
      v.watchedInvoke casing t alarm o left d arguments = v.invoke o left d.name (d.fragment casing) arguments ∧
      ∀ h, v.invoke o left d.name (d.fragment casing) arguments = .error h → h.Defined := by
  induction left with
  | zero =>
    intro d _ arguments
    refine ⟨rfl, ?_⟩
    intro h hm x h₀
    cases hm
    cases h₀
  | succ left ih =>
    intro d hd arguments
    have hc := fun name arguments => callWith_watched alarm hv hh o.context ih name arguments
    have henv : Surroundings.Reports Halt.Defined ⟨o.model, v.callWith o.context (v.invoke o left), o.steps⟩ :=
      ⟨fun _ h => h, fun name arguments h he => (hc name arguments).2 h he⟩
    have hw := watched_eq alarm henv (hv.lowered d hd) arguments
    have he : v.callWith o.context (fun name _ arguments =>
        match t.helper? name with
        | some d => v.watchedInvoke casing t alarm o left d arguments
        | none => .error alarm) = v.callWith o.context (v.invoke o left) :=
      funext fun name => funext fun arguments => (hc name arguments).1
    rw [watchedInvoke, invoke, he, hw.1]
    refine ⟨rfl, fun h hx => ?_⟩
    cases hr : (d.fragment casing).run ⟨o.model, v.callWith o.context (v.invoke o left), o.steps⟩ arguments with
    | ok html => rw [hr] at hx; cases hx
    | error e => rw [hr] at hx; cases hx; exact hw.2 _ hr

theorem surroundings_watched (hv : v.Serves casing t hosts) (hh : FindAll hosts) (o : Occasion) :
    v.watchedSurroundings casing t alarm o = v.surroundings o ∧ (v.surroundings o).Reports Halt.Defined := by
  have hc := fun name arguments => callWith_watched alarm hv hh o.context
    (invoke_watched alarm hv hh o v.maxCallDepth) name arguments
  refine ⟨?_, fun _ h => h, fun name arguments h he => (hc name arguments).2 h he⟩
  unfold watchedSurroundings surroundings
  rw [show v.callWith o.context _ = _ from funext fun name => funext fun arguments => (hc name arguments).1]

/-! ## Agreement -/

/-- the runs of a view see the names that the generator had declared: under watch, with any alarm, they give what they
give without, and they miss no variable -/
structure ScopesAgree (v : View) (casing : Casing) (t : Template) (steps : Nat) (model : Json) : Prop where
  render : ∀ alarm context, v.watchedRender casing t alarm steps model context = v.renderWith steps model context
  sections : ∀ alarm name, v.watchedSection casing t alarm steps model name = v.renderSection steps model name
  calls : ∀ alarm name arguments,
    v.watchedCall casing t alarm steps model name arguments = v.callHelper steps model name arguments
  renderDefined : ∀ context h, v.renderWith steps model context = .error h → h.Defined
  sectionDefined : ∀ name h, v.renderSection steps model name = .error h → h.Defined
  callDefined : ∀ name arguments h, v.callHelper steps model name arguments = .error h → h.Defined

theorem Serves.scopesAgree (hv : v.Serves casing t hosts) (hh : FindAll hosts) (steps : Nat) (model : Json) :
    v.ScopesAgree casing t steps model := by
  have hrender : ∀ alarm context,
      v.watchedRender casing t alarm steps model context = v.renderWith steps model context ∧
        ∀ h, v.renderWith steps model context = .error h → h.Defined := by
    intro alarm context
    obtain ⟨r, hr, hp⟩ := hv.program
    obtain ⟨hs, henv⟩ := surroundings_watched alarm hv hh ⟨.ofJson model, context, steps⟩
    have ht : t.sited casing = r.1 := by rw [Template.sited, hr]
    have hfits : Names.empty.Fits [([] : Table Value)] := ⟨fun _ => Iff.rfl, nofun⟩
    have hu := alike_html (sitedAll_unseen henv hr alarm { Run.start with scopes := [[]] } hfits)
    rw [← execAll_packed] at hu
    rw [watchedRender, hs, ht, renderWith, hp]
    exact hu
  have hsection : ∀ alarm name,
      v.watchedSection casing t alarm steps model name = v.renderSection steps model name ∧
        ∀ h, v.renderSection steps model name = .error h → h.Defined := by
    intro alarm name
    unfold watchedSection renderSection
    rw [hv.sections name]
    cases hd : t.section? name with
    | none => exact ⟨rfl, fun _ h => by cases h⟩
    | some d =>
      obtain ⟨hmem, rfl⟩ := Template.section?_spec hd
      obtain ⟨he, hdef⟩ := invoke_watched alarm hv hh (.ofModel steps model) v.maxCallDepth d hmem []
      simp only [Option.map_some, he, true_and]
      intro h hx
      cases hr : v.invoke (.ofModel steps model) v.maxCallDepth d.name (d.fragment casing) [] with
      | ok value => rw [hr] at hx; cases hx
      | error e => rw [hr] at hx; cases hx; exact hdef _ hr
  have hcall : ∀ alarm, v.watchedSurroundings casing t alarm (.ofModel steps model) =
      v.surroundings (.ofModel steps model) ∧ (v.surroundings (.ofModel steps model)).Reports Halt.Defined :=
    fun alarm => surroundings_watched alarm hv hh _
  exact
    { render := fun alarm context => (hrender alarm context).1
      sections := fun alarm name => (hsection alarm name).1
      calls := fun alarm name arguments => by rw [watchedCall, (hcall alarm).1]; rfl
      renderDefined := fun context => (hrender .outOfSteps context).2
      sectionDefined := fun name => (hsection .outOfSteps name).2
      callDefined := fun name arguments h he => (hcall .outOfSteps).2.call name arguments h he }

/-- **Static and run-time scopes agree.** Whatever the options, the host's helpers, the model, the context and the
number of steps, all runs of a compiled view evaluate each expression with exactly the variables that were declared where
it was lowered, and they miss none. There the generator lowers as `site` does under the names of its builder, segment by
segment; a bare name means a variable exactly if there is one at that moment; and no body changes the depth of scopes. -/
theorem scopes_agree {options : Options} {source : String} {view : View} (h : compile options source = .ok view)
    (hosts : List (String × Host)) (hh : FindAll hosts) (steps : Nat) (model : Json) :
    (∃ t, Template.parse source = .ok t ∧ (view.registerAll hosts).ScopesAgree options.casing t steps model) ∧
    (∀ p ss, Lowers options.casing (declaredAll ss) (segments options.casing ss) p
      (sitedAll options.casing p.builder.names ss)) ∧
    (∀ (s : Site options.casing) (scopes : Scopes), s.names.Agrees scopes → ∀ name,
      (s.names.naming options.casing).resolve name = .local name ↔ name ∈ scopes.names) ∧
    ∀ env ops (r r' : Run), Op.execAll env ops r = .ok ((), r') → r'.scopes.length = r.scopes.length := by
  obtain ⟨t, ht, hof, -⟩ := compile_of h
  refine ⟨⟨t, ht, (hof.serves hosts).scopesAgree hh steps model⟩, segments_follows options.casing, ?_, ?_⟩
  · exact fun s scopes ha name => resolve_eq_local_iff ha name
  · exact fun env ops r r' hr => (ends_ok (below_execAll env ops r) hr).2

/-- a counter, locals in a block and in bodies, an `else if`, and a call of a host's helper -/
def tally : String :=
  "@\x7b var n = 0; \x7d@for(var i = 0; i < 3; ++i)\x7b@if(i == 1)\x7b@\x7b var m = i; n += m; \x7d<b>@m</b>\x7d" ++
    "else if(i == 2)\x7b<i>@(n + i)</i>\x7delse\x7b@shout(n)\x7d\x7d"

theorem scopes_agree_tally :
    ∃ view, compile .default tally = .ok view ∧ FindAll [("shout", fun _ => .ok (.string "!"))] ∧
      ∃ t, Template.parse tally = .ok t ∧
        (view.registerAll [("shout", fun _ => .ok (.string "!"))]).ScopesAgree Options.default.casing t 9 .null := by
  obtain ⟨view, h, -⟩ := exists_ok (x := compile .default tally) (p := fun _ => true) (by decide +kernel)
  have hh : FindAll [("shout", fun _ => .ok (.string "!"))] := by
    intro p hp arguments e he
    rw [List.mem_singleton.1 hp] at he
    cases he
  exact ⟨view, h, hh, (scopes_agree h _ hh 9 .null).1⟩

end View

end TemplateView
