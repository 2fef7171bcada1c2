/-
Renderings that track other renderings. One view is rendered twice, under two limits on the depth of calls and on two
occasions; `tracks_invoke` shows by induction on the depth that calls of declared helpers track each other, and from it
follow the program, the sections and the calls that a host makes.

What has to be known of the view is said by `View.Confined`: its operations are of a kind, and the calls of it that fail
at once, without running a declared helper, fail for reasons that are allowed.
-/
import TemplateView.Proofs.Run.Tracking
import TemplateView.Proofs.View.Hosts

namespace TemplateView

open Generation

/-- the view with another limit on the depth of calls -/
def View.withDepth (v : View) (limit : Nat) : View := { v with maxCallDepth := limit }

/-- the operations of a view are of the kind `N`, and calls that run no declared helper fail only for reasons in `F` -/
structure View.Confined (F : Halt → Prop) (N : Expr → Prop) (loops : Prop) (v : View) : Prop extends Common F where
  ops : ∀ op ∈ v.ops, op.Within N loops
  host : ∀ name f, v.helpers.get? name = some (.host f) → ∀ values e, f values = .error e → F (.error e)
  builtin : ∀ name message, F (.error (.helper name message))
  unknown : ∀ name arguments, N (.callHelper name arguments) → v.hasHelper name = false →
    F (.error (.unknownHelper name))

/-- two occasions that differ only in what expressions of the kind `N` do not read, and in a bound that is not needed -/
structure Occasion.Matches (F : Halt → Prop) (N : Expr → Prop) (loops : Prop) (o o' : Occasion) : Prop where
  context : o.context = o'.context
  model : o.model.AgreesOn N o'.model
  steps : loops → o.steps = o'.steps ∧ F .outOfSteps

theorem Occasion.matches_self {F : Halt → Prop} (hF : F .outOfSteps) (N : Expr → Prop) (o : Occasion) :
    o.Matches F N True o :=
  ⟨rfl, .refl N o.model, fun _ => ⟨rfl, hF⟩⟩

/-- the levels that calls may still nest under two limits: the same, or the second one has no fewer and a run may escape at
the first limit -/
def Levels (E F : Halt → Prop) (limit limit' left left' : Nat) : Prop :=
  (left = left' ∧ limit = limit' ∧ ∀ name, F (.error (.recursionLimit name limit))) ∨
    (left ≤ left' ∧ ∀ name, E (.error (.recursionLimit name limit)))

theorem Levels.pred {E F : Halt → Prop} {limit limit' left left' : Nat}
    (h : Levels E F limit limit' (left + 1) left') : ∃ less, left' = less + 1 ∧ Levels E F limit limit' left less := by
  obtain ⟨rfl, h⟩ | ⟨hle, h⟩ := h
  · exact ⟨left, rfl, Or.inl ⟨rfl, h⟩⟩
  · exact ⟨left' - 1, by omega, Or.inr ⟨by omega, h⟩⟩

namespace View

variable {E F : Halt → Prop} {N : Expr → Prop} {loops : Prop} {v : View} {o o' : Occasion} {limit limit' : Nat}

theorem tracks_ofError {α : Type} {x : Except RenderError α} (h : ∀ e, x = .error e → F (.error e)) :
    Tracks E F (Halt.ofError x) (Halt.ofError x) := by
  cases x with
  | ok a => exact tracks_ok a
  | error e => exact tracks_error (h e rfl)

/-- calls by name track each other if those of declared helpers do -/
theorem tracks_callWith (hv : v.Confined F N loops) (context : Context)
    {invoke invoke' : String → Fragment → List Value → Except Halt Value}
    (hi : ∀ name f values, f ∈ v.fragments → Tracks E F (invoke name f values) (invoke' name f values))
    {name : String} {arguments : List Expr} (hn : N (.callHelper name arguments)) (values : List Value) :
    Tracks E F (v.callWith context invoke name values) (v.callWith context invoke' name values) := by
  unfold callWith
  cases hb : builtin? context name values with
  | some result =>
    refine tracks_ofError fun e he => ?_
    obtain ⟨message, rfl⟩ := builtin?_eq_error (he ▸ hb)
    exact hv.builtin name message
  | none =>
    cases hx : v.helpers.get? name with
    | none =>
      refine tracks_error (hv.unknown name arguments hn ?_)
      have hm : name ∉ Inventory.builtins := builtin?_eq_none_iff.1 hb
      simp [hasHelper, Table.contains, hx, hm]
    | some x =>
      cases x with
      | declared f => exact hi name f values (mem_fragments_of_helper hx)
      | host f => exact tracks_ofError (hv.host name f hx values)

/-- what programs see when calls may nest some levels deeper -/
theorem matches_callWith (hv : v.Confined F N loops) (ho : o.Matches F N loops o')
    {invoke invoke' : String → Fragment → List Value → Except Halt Value}
    (hi : ∀ name f values, f ∈ v.fragments → Tracks E F (invoke name f values) (invoke' name f values)) :
    Surroundings.Matches E F N loops ⟨o.model, v.callWith o.context invoke, o.steps⟩
      ⟨o'.model, v.callWith o'.context invoke', o'.steps⟩ where
  toCommon := hv.toCommon
  model := ho.model
  call := fun _ _ hn values => ho.context ▸ tracks_callWith hv o.context hi hn values
  steps := ho.steps

/-- **Calls of declared helpers track each other**, however deep they nest. -/
theorem tracks_invoke (hv : v.Confined F N loops) (ho : o.Matches F N loops o') (left : Nat) :
    ∀ left', Levels E F limit limit' left left' → ∀ name f values, f ∈ v.fragments →
      Tracks E F ((v.withDepth limit).invoke o left name f values)
        ((v.withDepth limit').invoke o' left' name f values) := by
  induction left with
  | zero =>
    intro left' hl name f values _
    obtain ⟨rfl, rfl, hF⟩ | ⟨-, hE⟩ := hl
    · exact tracks_error (hF name)
    · exact tracks_escape (hE name)
  | succ left ih =>
    intro left' hl name f values hf
    obtain ⟨less, rfl, hless⟩ := hl.pred
    have hops : ∀ op ∈ Op.allParts f.program, op.Within N loops := fun op h => hv.ops op (mem_ops_of_fragment hf h)
    rw [invoke, invoke]
    exact (tracks_fragment (matches_callWith hv ho (ih less hless)) hops values).bind fun html =>
      tracks_ok (Value.raw html)

theorem matches_surroundings (hv : v.Confined F N loops) (ho : o.Matches F N loops o')
    (hl : Levels E F limit limit' limit limit') :
    ((v.withDepth limit).surroundings o).Matches E F N loops ((v.withDepth limit').surroundings o') :=
  matches_callWith hv ho (tracks_invoke hv ho limit limit' hl)

/-! ## Rendering -/

theorem tracks_renderWith (hv : v.Confined F N loops) {steps steps' : Nat} {model model' : Json} {context : Context}
    (ho : Occasion.Matches F N loops ⟨.ofJson model, context, steps⟩ ⟨.ofJson model', context, steps'⟩)
    (hl : Levels E F limit limit' limit limit') :
    Tracks E F ((v.withDepth limit).renderWith steps model context)
      ((v.withDepth limit').renderWith steps' model' context) :=
  tracks_run (matches_surroundings hv ho hl) (fun op h => hv.ops op (List.mem_append_left _ h)) []

section

variable {steps steps' : Nat} {model model' : Json}
  (hv : v.Confined F N loops) (ho : (Occasion.ofModel steps model).Matches F N loops (.ofModel steps' model'))
  (hl : Levels E F limit limit' limit limit')

include hv ho hl

theorem tracks_callHelper {name : String} (arguments : List Expr) (hn : N (.callHelper name arguments))
    (values : List Value) :
    Tracks E F ((v.withDepth limit).callHelper steps model name values)
      ((v.withDepth limit').callHelper steps' model' name values) :=
  (matches_surroundings hv ho hl).call name arguments hn values

theorem tracks_renderSection (name : String) :
    Tracks E F ((v.withDepth limit).renderSection steps model name)
      ((v.withDepth limit').renderSection steps' model' name) := by
  have hs : (v.withDepth limit).sections.get? name = v.sections.get? name := rfl
  have hs' : (v.withDepth limit').sections.get? name = v.sections.get? name := rfl
  rw [renderSection, renderSection, hs, hs']
  cases hf : v.sections.get? name with
  | none => exact tracks_ok ""
  | some f =>
    have hi := tracks_invoke hv ho limit limit' hl name f [] (mem_fragments_of_section hf)
    exact hi.bind fun value => tracks_ok value.text

theorem tracks_renderSections :
    Tracks E F ((v.withDepth limit).renderSections steps model) ((v.withDepth limit').renderSections steps' model') :=
  tracks_mapM (fun name => (tracks_renderSection hv ho hl name).bind fun html => tracks_ok (name, html)) v.sections.keys

end

end View

end TemplateView
