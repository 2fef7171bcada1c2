/-
The normal form of compiled views. `normal_form` says that the program of a view, its helpers and its sections are in
normal form in every body: no text is empty or stands beside another one, and the operations of attributes stand in
groups. Hence no run of the view, in helpers and sections too, has a part or an end of an attribute where none is open,
or anything else where one is: all runs on guard are as they are without.
-/
import TemplateView.Proofs.Run.Guarded
import TemplateView.Proofs.View.Hosts

namespace TemplateView

open Execution Generation

/-! ## Views on guard -/

/-- the markup of a helper or a section for some arguments, on guard -/
def Fragment.guarded (alarm : Halt) (env : Surroundings) (f : Fragment) (arguments : List Value) : Except Halt String :=
  html (Table.ofList (f.parameters.zip (arguments ++ List.replicate f.parameters.length .null)))
    (Op.guardedAll alarm env f.program)

namespace View

variable (v : View) (alarm : Halt)

/-- the markup of a helper or a section when calls may nest `left` levels deeper, all of it on guard -/
def guardedInvoke (o : Occasion) : Nat → String → Fragment → List Value → Except Halt Value
  | 0, name, _, _ => .error (.error (.recursionLimit name v.maxCallDepth))
  | left + 1, _, f, arguments => do
    return .raw (← f.guarded alarm ⟨o.model, v.callWith o.context (guardedInvoke o left), o.steps⟩ arguments)

/-- what the outermost programs of a view see, with calls on guard -/
def guardedSurroundings (o : Occasion) : Surroundings :=
  ⟨o.model, v.callWith o.context (v.guardedInvoke alarm o v.maxCallDepth), o.steps⟩

def guardedRender (steps : Nat) (model : Json) (context : Context) : Except Halt String :=
  html [] (Op.guardedAll alarm (v.guardedSurroundings alarm ⟨.ofJson model, context, steps⟩) v.program)

def guardedSection (steps : Nat) (model : Json) (name : String) : Except Halt String :=
  match v.sections.get? name with
  | none => .ok ""
  | some f => do return (← v.guardedInvoke alarm (.ofModel steps model) v.maxCallDepth name f []).text

def guardedCall (steps : Nat) (model : Json) (name : String) (arguments : List Value) : Except Halt Value :=
  (v.guardedSurroundings alarm (.ofModel steps model)).call name arguments

/-- the runs of a view are as they are on guard: an alarm, whatever it is, is never raised -/
structure Quiet (v : View) (steps : Nat) (model : Json) : Prop where
  render : ∀ alarm context, v.guardedRender alarm steps model context = v.renderWith steps model context
  sections : ∀ alarm name, v.guardedSection alarm steps model name = v.renderSection steps model name
  calls : ∀ alarm name arguments, v.guardedCall alarm steps model name arguments = v.callHelper steps model name arguments

variable {v}

/-! ## No alarm -/

/-- a program in normal form writes on guard what it writes without -/
theorem html_guarded {ops : List Op} (h : Op.NormalForm ops) (env : Surroundings) (initial : Table Value) :
    html initial (Op.guardedAll alarm env ops) = Program.run env initial ops :=
  (alike_html (h.quiet alarm { Run.start with scopes := [initial] } rfl)).1

/-- calls by name depend on how the helpers of the view run -/
theorem callWith_congr (context : Context) {invoke invoke' : String → Fragment → List Value → Except Halt Value}
    (h : ∀ f ∈ v.fragments, ∀ name arguments, invoke name f arguments = invoke' name f arguments) :
    v.callWith context invoke = v.callWith context invoke' := by
  funext name arguments
  unfold callWith
  cases builtin? context name arguments with
  | some result => rfl
  | none =>
    cases hx : v.helpers.get? name with
    | none => rfl
    | some x =>
      cases x with
      | declared f => exact h f (mem_fragments_of_helper hx) name arguments
      | host f => rfl

/-- calls on guard are calls, however deep they nest -/
theorem invoke_guarded (hv : ∀ f ∈ v.fragments, Op.NormalForm f.program) (o : Occasion) (left : Nat) :
    ∀ f ∈ v.fragments, ∀ name arguments,
      v.guardedInvoke alarm o left name f arguments = v.invoke o left name f arguments := by
  induction left with
  | zero => exact fun _ _ _ _ => rfl
  | succ left ih =>
    intro f hf name arguments
    rw [guardedInvoke, invoke, Fragment.guarded, callWith_congr o.context ih, html_guarded alarm (hv f hf)]
    rfl

theorem surroundings_guarded (hv : ∀ f ∈ v.fragments, Op.NormalForm f.program) (o : Occasion) :
    v.guardedSurroundings alarm o = v.surroundings o := by
  rw [guardedSurroundings, surroundings, callWith_congr o.context (invoke_guarded alarm hv o v.maxCallDepth)]

theorem quiet_of_normalForm (hp : Op.NormalForm v.program) (hv : ∀ f ∈ v.fragments, Op.NormalForm f.program)
    (steps : Nat) (model : Json) : v.Quiet steps model where
  render alarm context := by
    rw [guardedRender, surroundings_guarded alarm hv, html_guarded alarm hp]
    rfl
  sections alarm name := by
    rw [guardedSection, renderSection]
    cases hf : v.sections.get? name with
    | none => rfl
    | some f => simp only [invoke_guarded alarm hv _ _ f (mem_fragments_of_section hf)]
  calls alarm name arguments := by rw [guardedCall, surroundings_guarded alarm hv]; rfl

/-! ## Compiled views -/

theorem Of.normalForm {casing : Casing} {t : Template} (h : v.Of casing t) :
    Op.NormalForm v.program ∧ ∀ f ∈ v.fragments, Op.NormalForm f.program := by
  constructor
  · obtain ⟨r, hr, hp⟩ := h.program
    rw [hp]
    exact normalForm_sited hr
  · intro f hf
    obtain ⟨d, hd, rfl⟩ := h.mem_fragments hf
    obtain ⟨r, hr⟩ := h.lowered d hd
    rw [fragment_of_sited hr]
    exact normalForm_sited hr

/-- **Programs have a normal form.** In the program of a compiled view, in its helpers and in its sections, every body at
whatever depth is in normal form. So the runs of the view, whatever the host's helpers, the number of steps and the model,
find an attribute open at each of its parts and at its end, and none open anywhere else. -/
theorem normal_form {options : Options} {source : String} {view : View} (h : compile options source = .ok view) :
    (∀ program ∈ view.program :: view.fragments.map (·.program), ∀ body, Op.BodyOf program body → Op.Normal body) ∧
    ∀ hosts steps model, (view.registerAll hosts).Quiet steps model := by
  obtain ⟨t, -, hof, -⟩ := compile_of h
  obtain ⟨hp, hf⟩ := hof.normalForm
  refine ⟨fun program hm => ?_, fun hosts steps model => ?_⟩
  · rcases List.mem_cons.1 hm with rfl | hm
    · exact hp
    · obtain ⟨f, hmem, rfl⟩ := List.mem_map.1 hm
      exact hf f hmem
  · refine quiet_of_normalForm ?_ (fun f hm => hf f (fragment_registerAll hm)) steps model
    rw [registerAll_eq]
    exact hp

/-- a helper with an attribute that is called inside an attribute, in a loop in a section, with comments and text around -/
def toneGallery : String :=
  "@helper tone(x)\x7b<i class=\"@x\"></i>\x7d@section list\x7b@for(var i = 0; i < 2; ++i)" ++
    "\x7b@* row *@ <b class=\"card @tone(i)\" id='@i'>@i</b>@\x7bvar m = i;\x7d\x7d\x7d<p>@* none *@</p>"

theorem normal_form_gallery :
    ∃ view, compile .default toneGallery = .ok view ∧
      (∀ program ∈ view.program :: view.fragments.map (·.program), ∀ body, Op.BodyOf program body → Op.Normal body) ∧
      (view.registerAll []).Quiet 5 .null := by
  obtain ⟨view, h, -⟩ := exists_ok (x := compile .default toneGallery) (p := fun _ => true) (by decide +kernel)
  obtain ⟨hn, hq⟩ := normal_form h
  exact ⟨view, h, hn, hq [] 5 .null⟩

end View

end TemplateView
