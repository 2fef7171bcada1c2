/-
Missing helpers are listed. What a view calls is called in its template, and so it is in the inventory; what is there, and
is neither a builtin nor declared nor registered, is listed as missing. `Halt.Listed` says of a run that the unknown helper
it ends with, if it does, is listed; it holds of all that a compiled view renders. `no_helper_missing` follows: a view that
lists none never meets one.
-/
import TemplateView.Proofs.View.Inventory
import TemplateView.Proofs.View.Tracking

namespace TemplateView

/-! ## Calls of expressions -/

/-- a call by the expression itself is of a name with the property -/
def Expr.CallsOnly (P : String → Prop) : Expr → Prop
  | .callHelper name _ => P name
  | _ => True

mutual

theorem Expr.every_callsOnly {P : String → Prop} : ∀ e : Expr, (∀ name ∈ e.called, P name) → e.Every (Expr.CallsOnly P)
  | .constant _, _ => trivial
  | .local _, _ => trivial
  | .model _, _ => trivial
  | .modelRoot, _ => trivial
  | .member object _, h => ⟨trivial, Expr.every_callsOnly object h⟩
  | .index target key, h => by
    obtain ⟨ht, hk⟩ := List.forall_mem_append.1 h
    exact ⟨trivial, Expr.every_callsOnly target ht, Expr.every_callsOnly key hk⟩
  | .callHelper name arguments, h => by
    obtain ⟨hn, ha⟩ := List.forall_mem_cons.1 h
    exact ⟨hn, Expr.allEvery_callsOnly arguments ha⟩
  | .callMethod receiver _ arguments, h => by
    obtain ⟨hr, ha⟩ := List.forall_mem_append.1 h
    exact ⟨trivial, Expr.every_callsOnly receiver hr, Expr.allEvery_callsOnly arguments ha⟩
  | .array items, h => ⟨trivial, Expr.allEvery_callsOnly items h⟩
  | .unary _ operand, h => ⟨trivial, Expr.every_callsOnly operand h⟩
  | .update .., _ => trivial
  | .binary left _ right, h => by
    obtain ⟨hl, hr⟩ := List.forall_mem_append.1 h
    exact ⟨trivial, Expr.every_callsOnly left hl, Expr.every_callsOnly right hr⟩
  | .assign _ value, h => ⟨trivial, Expr.every_callsOnly value h⟩
  | .conditional test whenTrue whenFalse, h => by
    obtain ⟨h, hf⟩ := List.forall_mem_append.1 h
    obtain ⟨ht, hw⟩ := List.forall_mem_append.1 h
    exact ⟨trivial, Expr.every_callsOnly test ht, Expr.every_callsOnly whenTrue hw, Expr.every_callsOnly whenFalse hf⟩

theorem Expr.allEvery_callsOnly {P : String → Prop} :
    ∀ es : List Expr, (∀ name ∈ Expr.calledAll es, P name) → Expr.AllEvery (Expr.CallsOnly P) es
  | [], _ => trivial
  | e :: es, h => by
    obtain ⟨he, hes⟩ := List.forall_mem_append.1 h
    exact ⟨Expr.every_callsOnly e he, Expr.allEvery_callsOnly es hes⟩

end

/-! ## Listed names -/

/-- an unknown helper that a run ends with is listed as missing -/
def Halt.Listed (v : View) (h : Halt) : Prop := ∀ name, h = .error (.unknownHelper name) → name ∈ v.missingHelpers

theorem listed_of_ne {v : View} {e : RenderError} (h : ∀ name, e ≠ .unknownHelper name) : Halt.Listed v (.error e) := by
  intro name he
  cases he
  exact absurd rfl (h name)

namespace View

open Generation

variable {v : View} {casing : Casing} {t : Template} {hosts : List (String × Host)}

theorem hasHelper_registerAll {name : String} (h : name ∈ v.helpers.keys) :
    (v.registerAll hosts).hasHelper name = true := by
  have hc : ((v.registerAll hosts).helpers.get? name).isSome = true := by
    rw [get?_registerAll]
    cases (Table.ofList hosts).get? name with
    | some f => rfl
    | none => exact Table.mem_keys.1 h
  rw [hasHelper, Table.contains, hc, Bool.or_true]

/-- a name that a view calls and that nothing defines is listed as missing -/
theorem Of.mem_missingHelpers (h : v.Of casing t) (hw : t.Whole) (hh : (t.helpers.map Prod.fst).Nodup)
    (hs : (t.sections.map Prod.fst).Nodup) {name : String} (hc : name ∈ v.called)
    (hn : (v.registerAll hosts).hasHelper name = false) : name ∈ (v.registerAll hosts).missingHelpers := by
  have hcalled : name ∈ v.inventory.helpersCalled := (h.mem_helpersCalled_iff hw hh hs name).2 hc
  have hdeclared : name ∉ v.inventory.helpersDeclared := by
    rw [h.helpersDeclared_eq hw]
    intro hk
    rw [hasHelper_registerAll hk] at hn
    cases hn
  have hi : (v.registerAll hosts).inventory = v.inventory := by rw [registerAll_eq]
  obtain ⟨hb, hr⟩ : Inventory.builtins.contains name = false ∧ (v.registerAll hosts).helpers.contains name = false := by
    simpa [hasHelper] using hn
  rw [missingHelpers, hi, Inventory.externalHelpers, List.mem_filter, List.mem_filter]
  refine ⟨⟨hcalled, ?_⟩, by rw [hr]; rfl⟩
  rw [hb]
  simpa using hdeclared

/-! ## Soundness -/

/-- hosts whose helpers do not speak of unknown helpers -/
def FindHelpers (hosts : List (String × Host)) : Prop :=
  ∀ p ∈ hosts, ∀ arguments name, p.2 arguments ≠ .error (.unknownHelper name)

/-- the name is listed as missing, or there is a builtin or a helper of that name -/
def Accounted (v : View) (name : String) : Prop := name ∈ v.missingHelpers ∨ v.hasHelper name = true

/-- what a compiled view calls is accounted for, and unknown helpers that its calls meet are listed -/
theorem Of.confined (h : v.Of casing t) (hw : t.Whole) (hh : (t.helpers.map Prod.fst).Nodup)
    (hs : (t.sections.map Prod.fst).Nodup) (hf : FindHelpers hosts) :
    (v.registerAll hosts).Confined (Halt.Listed (v.registerAll hosts))
      (Expr.CallsOnly (v.registerAll hosts).Accounted) True where
  values := by
    intro e he
    refine listed_of_ne fun name hn => ?_
    subst hn
    exact he
  scopes := fun _ => listed_of_ne nofun
  ops := by
    intro op ho
    refine ⟨fun e he => Expr.every_callsOnly e fun name hn => ?_, fun _ => trivial⟩
    have hc : name ∈ v.called := List.mem_flatMap.2 ⟨op, ops_registerAll ho, List.mem_flatMap.2 ⟨e, he, hn⟩⟩
    cases hx : (v.registerAll hosts).hasHelper name with
    | true => exact Or.inr hx
    | false => exact Or.inl (h.mem_missingHelpers hw hh hs hc hx)
  host := by
    intro name f hx values e he
    have hm : (name, f) ∈ hosts := by
      rw [get?_registerAll] at hx
      cases hg : (Table.ofList hosts).get? name with
      | some g =>
        rw [hg] at hx
        cases hx
        exact Table.mem_of_mem_ofList (Table.mem_of_get? hg)
      | none =>
        rw [hg] at hx
        obtain ⟨_, _, hd⟩ := h.declared hx
        cases hd
    refine listed_of_ne fun name hn => ?_
    subst hn
    exact hf _ hm values name he
  builtin := fun _ _ => listed_of_ne nofun
  unknown := by
    intro name arguments hn hx other he
    cases he
    rcases hn with hn | hn
    · exact hn
    · rw [hx] at hn; cases hn

/-- each unknown helper that a rendering of the view ends with is listed as missing -/
structure ListsMissing (v : View) (steps : Nat) (model : Json) : Prop where
  render : ∀ context h, v.renderWith steps model context = .error h → h.Listed v
  sections : ∀ name h, v.renderSection steps model name = .error h → h.Listed v
  allSections : ∀ h, v.renderSections steps model = .error h → h.Listed v
  calls : ∀ name arguments h, v.hasHelper name = true → v.callHelper steps model name arguments = .error h → h.Listed v

/-- **No unknown helper is met that is not listed as missing.** -/
theorem Confined.listsMissing (hv : v.Confined (Halt.Listed v) (Expr.CallsOnly v.Accounted) True) (steps : Nat)
    (model : Json) : v.ListsMissing steps model := by
  have hout : Halt.Listed v .outOfSteps := nofun
  have hlimit : Levels (fun _ => False) (Halt.Listed v) v.maxCallDepth v.maxCallDepth v.maxCallDepth v.maxCallDepth :=
    Or.inl ⟨rfl, rfl, fun _ => listed_of_ne nofun⟩
  have ho : ∀ o : Occasion, o.Matches (Halt.Listed v) (Expr.CallsOnly v.Accounted) True o :=
    Occasion.matches_self hout _
  exact
    { render := fun context => (tracks_renderWith hv (ho _) hlimit).eq.2
      sections := fun name => (tracks_renderSection hv (ho _) hlimit name).eq.2
      allSections := (tracks_renderSections hv (ho _) hlimit).eq.2
      calls := fun name arguments h hn =>
        (tracks_callHelper hv (ho _) hlimit [] (Or.inr hn) arguments).eq.2 h }

/-- **A view that lists no missing helper never meets an unknown one.** Let a view be compiled from any source, and let a
host register helpers that do not themselves fail with an unknown helper. If no helper is listed as missing then, for every
model and context, the program, every section, all sections together, and calls of a builtin or of a helper never end with
an unknown helper; and each helper of the template can be called. -/
theorem no_helper_missing {options : Options} {source : String} {view : View} (h : compile options source = .ok view)
    (hosts : List (String × Host)) (hh : FindHelpers hosts) (hm : (view.registerAll hosts).missingHelpers = [])
    (steps : Nat) (model : Json) (name : String) :
    (∀ context, (view.registerAll hosts).renderWith steps model context ≠ .error (.error (.unknownHelper name))) ∧
    (∀ part, (view.registerAll hosts).renderSection steps model part ≠ .error (.error (.unknownHelper name))) ∧
    (view.registerAll hosts).renderSections steps model ≠ .error (.error (.unknownHelper name)) ∧
    (∀ helper arguments, (view.registerAll hosts).hasHelper helper = true →
      (view.registerAll hosts).callHelper steps model helper arguments ≠ .error (.error (.unknownHelper name))) ∧
    ∀ helper ∈ view.helpers.keys, (view.registerAll hosts).hasHelper helper = true := by
  obtain ⟨t, -, hof, hw, hone, hsections⟩ := compile_of_once h
  have hlists := (hof.confined hw hone hsections hh).listsMissing steps model
  have hnone : name ∉ (view.registerAll hosts).missingHelpers := by rw [hm]; exact List.not_mem_nil
  refine ⟨?_, ?_, ?_, ?_, ?_⟩
  · exact fun context he => hnone (hlists.render context _ he name rfl)
  · exact fun part he => hnone (hlists.sections part _ he name rfl)
  · exact fun he => hnone (hlists.allSections _ he name rfl)
  · exact fun helper arguments hx he => hnone (hlists.calls helper arguments _ hx he name rfl)
  · exact fun helper hk => hasHelper_registerAll hk

/-- a helper that calls a host's helper in an attribute, called itself in a loop of a section -/
def gallery : String :=
  "@helper item(x) \x7b<li title='@label(x)'>@x</li>\x7d@section list\x7b@foreach(var n in names)\x7b@item(n)\x7d\x7d" ++
    "@if(open)\x7b@raw(label(title))\x7d"

theorem no_helper_missing_gallery :
    ∃ view, compile .default gallery = .ok view ∧ view.missingHelpers = ["label"] ∧
      FindHelpers [("label", fun _ => .error (.helper "label" "refused"))] ∧
      (view.registerAll [("label", fun _ => .error (.helper "label" "refused"))]).missingHelpers = [] ∧
      (view.registerAll [("label", fun _ => .error (.helper "label" "refused"))]).renderSections 9
        (.object [("names", .array [.string "a"])]) ≠ .error (.error (.unknownHelper "label")) := by
  obtain ⟨view, h, hv⟩ := exists_ok (x := compile .default gallery)
    (p := fun view => decide (view.missingHelpers = ["label"] ∧
      (view.registerAll [("label", fun _ => .error (.helper "label" "refused"))]).missingHelpers = [])) (by decide +kernel)
  obtain ⟨hl, hm⟩ := decide_eq_true_iff.1 hv
  have hh : FindHelpers [("label", fun _ => .error (.helper "label" "refused"))] := by
    intro p hp arguments name
    rw [List.mem_singleton.1 hp]
    nofun
  exact ⟨view, h, hl, hh, hm, (no_helper_missing h _ hh hm 9 _ "label").2.2.1⟩

end View

end TemplateView
