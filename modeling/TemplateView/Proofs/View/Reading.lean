/-
What a view reads of a model. A program names the properties of the model that it reads, unless an expression takes the
model as a whole. So where none does, two models that agree on the named properties cannot be told apart by rendering
(`named_properties_suffice`): what else a model holds reaches neither the markup nor the errors, and no loop runs longer
for it.
-/
import TemplateView.Proofs.View.Tracking

namespace TemplateView

/-- an expression that reads the same of two models where it reads the model itself -/
def Expr.ReadsAlike (model model' : Value) : Expr → Prop
  | .model name => model.property name = model'.property name
  | .modelRoot => model = model'
  | _ => True

namespace View

open Generation

/-- the model is nowhere taken as a whole, and two models have the same values for all properties that are named -/
structure NamesAgree (v : View) (model model' : Value) : Prop where
  part : Expr.modelRoot ∉ v.nodes
  same : ∀ name, Expr.model name ∈ v.nodes → model.property name = model'.property name

theorem NamesAgree.readsAlike {v : View} {model model' : Value} (h : v.NamesAgree model model') {e : Expr}
    (he : e ∈ v.nodes) : e.ReadsAlike model model' := by
  cases e with
  | model name => exact h.same name he
  | modelRoot => exact absurd he h.part
  | _ => trivial

variable {v : View} {hosts : List (String × Host)}

/-- a view with helpers of a host evaluates no expressions but its own -/
theorem mem_nodes_of_registerAll {op : Op} (ho : op ∈ (v.registerAll hosts).ops) {e : Expr} (he : e ∈ op.exprs) {x : Expr}
    (hx : x ∈ e.nodes) : x ∈ v.nodes :=
  List.mem_flatMap.2 ⟨op, ops_registerAll ho, List.mem_flatMap.2 ⟨e, he, hx⟩⟩

theorem NamesAgree.confined {model model' : Value} (h : v.NamesAgree model model') (hosts : List (String × Host)) :
    (v.registerAll hosts).Confined (fun _ => True) (Expr.ReadsAlike model model') True where
  values := fun _ _ => trivial
  scopes := fun _ => trivial
  ops := by
    refine fun op ho => ⟨fun e he => (Expr.every_iff e).2 fun x hx => ?_, fun _ => trivial⟩
    exact h.readsAlike (mem_nodes_of_registerAll ho he hx)
  host := fun _ _ _ _ _ _ => trivial
  builtin := fun _ _ => trivial
  unknown := fun _ _ _ _ => trivial

/-- **A view reads only the properties that it names.** Take a view in which no expression of the program, of a declared
helper or of a section is the model as a whole, and two models with the same values for all names that these programs read
of the model. Whatever helpers a host registers, both models then give the same: the markup or the error of the program
for every context, of each section and of all sections together, and the value or the error of every call. -/
theorem named_properties_suffice (v : View) (hosts : List (String × Host)) {model model' : Json}
    (h : v.NamesAgree (.ofJson model) (.ofJson model')) (steps : Nat) :
    (∀ context, (v.registerAll hosts).renderWith steps model context =
      (v.registerAll hosts).renderWith steps model' context) ∧
    (∀ name, (v.registerAll hosts).renderSection steps model name =
      (v.registerAll hosts).renderSection steps model' name) ∧
    (v.registerAll hosts).renderSections steps model = (v.registerAll hosts).renderSections steps model' ∧
    ∀ name arguments, (v.registerAll hosts).callHelper steps model name arguments =
      (v.registerAll hosts).callHelper steps model' name arguments := by
  have hv := h.confined hosts
  have hlimit : ∀ n, Levels (fun _ => False) (fun _ => True) n n n n := fun _ => Or.inl ⟨rfl, rfl, fun _ => trivial⟩
  have ho : ∀ context, Occasion.Matches (fun _ => True) (Expr.ReadsAlike (.ofJson model) (.ofJson model')) True
      ⟨.ofJson model, context, steps⟩ ⟨.ofJson model', context, steps⟩ :=
    fun _ => ⟨rfl, ⟨fun _ hn => hn, fun hr => hr⟩, fun _ => ⟨rfl, trivial⟩⟩
  refine ⟨fun context => ?_, fun name => ?_, ?_, fun name arguments => ?_⟩
  · exact (tracks_renderWith hv (ho context) (hlimit _)).eq.1
  · exact (tracks_renderSection hv (ho .empty) (hlimit _) name).eq.1
  · exact (tracks_renderSections hv (ho .empty) (hlimit _)).eq.1
  · exact (tracks_callHelper hv (ho .empty) (hlimit _) [] trivial arguments).eq.1

/-- a helper with a loop over the items of a property, called in an attribute and from a section -/
def shelf : String :=
  "@helper row(n) \x7b@for(var i = 0; i < n; i++)\x7b<i>@Items[i]</i>\x7d\x7d@section foot\x7b@row(1)\x7d" ++
    "<p title='@raw(row(2))'>@mark(title)</p>"

/-- a model beside the properties that the view names -/
def stocked (rest : List (String × Json)) : Json :=
  .object ([("items", .array [.string "a", .string "b"]), ("title", .string "t")] ++ rest)

theorem named_properties_suffice_shelf :
    ∃ view, compile ⟨.pascalToCamel, 3⟩ shelf = .ok view ∧
      view.NamesAgree (.ofJson (stocked [])) (.ofJson (stocked [("Items", .string "secret"), ("n", .bool true)])) ∧
      (view.registerAll [("mark", fun arguments => .ok (.array arguments))]).callHelper 9 (stocked []) "row" [.number 2] =
        (view.registerAll [("mark", fun arguments => .ok (.array arguments))]).callHelper 9
          (stocked [("Items", .string "secret"), ("n", .bool true)]) "row" [.number 2] := by
  obtain ⟨view, h, hv⟩ := exists_ok (x := compile ⟨.pascalToCamel, 3⟩ shelf)
    (p := fun view => view.nodes.all fun
      | .modelRoot => false
      | .model name => ["items", "title"].contains name
      | _ => true) (by decide +kernel)
  have hn := List.all_eq_true.1 hv
  have hagree : view.NamesAgree (.ofJson (stocked [])) (.ofJson (stocked [("Items", .string "secret"), ("n", .bool true)])) := by
    refine ⟨fun he => (nomatch hn _ he), fun name he => ?_⟩
    rcases List.mem_cons.1 (List.contains_iff_mem.1 (hn _ he)) with rfl | ht
    · rfl
    · rw [List.mem_singleton.1 ht]
      rfl
  exact ⟨view, h, hagree, (named_properties_suffice view _ hagree 9).2.2.2 "row" [.number 2]⟩

end View

end TemplateView
