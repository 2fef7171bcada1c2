/-
What a program is made of. `Expr.Every P` says that `P` holds of an expression and of all inside it, which `Expr.nodes`
lists; `Op.parts` lists an operation with all in its bodies, so that a property of a program's operations is a statement
about the members of a list. A view's programs are its main one and those of its declared helpers and its sections.
-/
import TemplateView.Proofs.Table
import TemplateView.View

namespace TemplateView

/-! ## Expressions -/

mutual

/-- `P` holds of an expression and of all inside it -/
def Expr.Every (P : Expr → Prop) : Expr → Prop
  | .constant v => P (.constant v)
  | .local name => P (.local name)
  | .model name => P (.model name)
  | .modelRoot => P .modelRoot
  | .member object name => P (.member object name) ∧ object.Every P
  | .index target key => P (.index target key) ∧ target.Every P ∧ key.Every P
  | .callHelper name arguments => P (.callHelper name arguments) ∧ Expr.AllEvery P arguments
  | .callMethod receiver name arguments =>
    P (.callMethod receiver name arguments) ∧ receiver.Every P ∧ Expr.AllEvery P arguments
  | .array items => P (.array items) ∧ Expr.AllEvery P items
  | .unary op operand => P (.unary op operand) ∧ operand.Every P
  | .update name step fixity => P (.update name step fixity)
  | .binary left op right => P (.binary left op right) ∧ left.Every P ∧ right.Every P
  | .assign name value => P (.assign name value) ∧ value.Every P
  | .conditional test whenTrue whenFalse =>
    P (.conditional test whenTrue whenFalse) ∧ test.Every P ∧ whenTrue.Every P ∧ whenFalse.Every P

def Expr.AllEvery (P : Expr → Prop) : List Expr → Prop
  | [] => True
  | e :: es => e.Every P ∧ Expr.AllEvery P es

end

mutual

theorem Expr.Every.mono {P Q : Expr → Prop} (h : ∀ e, P e → Q e) : ∀ e : Expr, e.Every P → e.Every Q
  | .constant _, he => h _ he
  | .local _, he => h _ he
  | .model _, he => h _ he
  | .modelRoot, he => h _ he
  | .member object _, he => ⟨h _ he.1, Expr.Every.mono h object he.2⟩
  | .index target key, he => ⟨h _ he.1, Expr.Every.mono h target he.2.1, Expr.Every.mono h key he.2.2⟩
  | .callHelper _ arguments, he => ⟨h _ he.1, Expr.AllEvery.mono h arguments he.2⟩
  | .callMethod receiver _ arguments, he =>
    ⟨h _ he.1, Expr.Every.mono h receiver he.2.1, Expr.AllEvery.mono h arguments he.2.2⟩
  | .array items, he => ⟨h _ he.1, Expr.AllEvery.mono h items he.2⟩
  | .unary _ operand, he => ⟨h _ he.1, Expr.Every.mono h operand he.2⟩
  | .update .., he => h _ he
  | .binary left _ right, he => ⟨h _ he.1, Expr.Every.mono h left he.2.1, Expr.Every.mono h right he.2.2⟩
  | .assign _ value, he => ⟨h _ he.1, Expr.Every.mono h value he.2⟩
  | .conditional test whenTrue whenFalse, he =>
    ⟨h _ he.1, Expr.Every.mono h test he.2.1, Expr.Every.mono h whenTrue he.2.2.1, Expr.Every.mono h whenFalse he.2.2.2⟩

theorem Expr.AllEvery.mono {P Q : Expr → Prop} (h : ∀ e, P e → Q e) :
    ∀ es : List Expr, Expr.AllEvery P es → Expr.AllEvery Q es
  | [], _ => trivial
  | e :: es, he => ⟨Expr.Every.mono h e he.1, Expr.AllEvery.mono h es he.2⟩

end

mutual

theorem Expr.every_of_forall {P : Expr → Prop} (h : ∀ e, P e) : ∀ e : Expr, e.Every P
  | .constant _ => h _
  | .local _ => h _
  | .model _ => h _
  | .modelRoot => h _
  | .member object _ => ⟨h _, Expr.every_of_forall h object⟩
  | .index target key => ⟨h _, Expr.every_of_forall h target, Expr.every_of_forall h key⟩
  | .callHelper _ arguments => ⟨h _, Expr.allEvery_of_forall h arguments⟩
  | .callMethod receiver _ arguments => ⟨h _, Expr.every_of_forall h receiver, Expr.allEvery_of_forall h arguments⟩
  | .array items => ⟨h _, Expr.allEvery_of_forall h items⟩
  | .unary _ operand => ⟨h _, Expr.every_of_forall h operand⟩
  | .update .. => h _
  | .binary left _ right => ⟨h _, Expr.every_of_forall h left, Expr.every_of_forall h right⟩
  | .assign _ value => ⟨h _, Expr.every_of_forall h value⟩
  | .conditional test whenTrue whenFalse =>
    ⟨h _, Expr.every_of_forall h test, Expr.every_of_forall h whenTrue, Expr.every_of_forall h whenFalse⟩

theorem Expr.allEvery_of_forall {P : Expr → Prop} (h : ∀ e, P e) : ∀ es : List Expr, Expr.AllEvery P es
  | [] => trivial
  | e :: es => ⟨Expr.every_of_forall h e, Expr.allEvery_of_forall h es⟩

end

mutual

/-- an expression and all inside it -/
def Expr.nodes (e : Expr) : List Expr :=
  e ::
    match e with
    | .member object _ => object.nodes
    | .index target key => target.nodes ++ key.nodes
    | .callHelper _ arguments => Expr.allNodes arguments
    | .callMethod receiver _ arguments => receiver.nodes ++ Expr.allNodes arguments
    | .array items => Expr.allNodes items
    | .unary _ operand => operand.nodes
    | .binary left _ right => left.nodes ++ right.nodes
    | .assign _ value => value.nodes
    | .conditional test whenTrue whenFalse => test.nodes ++ whenTrue.nodes ++ whenFalse.nodes
    | _ => []

def Expr.allNodes : List Expr → List Expr
  | [] => []
  | e :: es => e.nodes ++ Expr.allNodes es

end

mutual

/-- what holds of all nodes holds of the expression and of all inside it -/
theorem Expr.every_iff {P : Expr → Prop} : ∀ e : Expr, e.Every P ↔ ∀ x ∈ e.nodes, P x
  | .constant _ => by simp [Expr.Every, Expr.nodes]
  | .local _ => by simp [Expr.Every, Expr.nodes]
  | .model _ => by simp [Expr.Every, Expr.nodes]
  | .modelRoot => by simp [Expr.Every, Expr.nodes]
  | .member object _ => by simp [Expr.Every, Expr.nodes.eq_def (.member ..), Expr.every_iff object]
  | .index target key => by
    simp [Expr.Every, Expr.nodes.eq_def (.index ..), Expr.every_iff target, Expr.every_iff key, or_imp, forall_and]
  | .callHelper _ arguments => by
    simp [Expr.Every, Expr.nodes.eq_def (.callHelper ..), Expr.allEvery_iff arguments]
  | .callMethod receiver _ arguments => by
    simp [Expr.Every, Expr.nodes.eq_def (.callMethod ..), Expr.every_iff receiver, Expr.allEvery_iff arguments, or_imp,
      forall_and]
  | .array items => by simp [Expr.Every, Expr.nodes.eq_def (.array _), Expr.allEvery_iff items]
  | .unary _ operand => by simp [Expr.Every, Expr.nodes.eq_def (.unary ..), Expr.every_iff operand]
  | .update .. => by simp [Expr.Every, Expr.nodes]
  | .binary left _ right => by
    simp [Expr.Every, Expr.nodes.eq_def (.binary ..), Expr.every_iff left, Expr.every_iff right, or_imp, forall_and]
  | .assign _ value => by simp [Expr.Every, Expr.nodes.eq_def (.assign ..), Expr.every_iff value]
  | .conditional test whenTrue whenFalse => by
    simp [Expr.Every, Expr.nodes.eq_def (.conditional ..), Expr.every_iff test, Expr.every_iff whenTrue,
      Expr.every_iff whenFalse, or_imp, forall_and]

theorem Expr.allEvery_iff {P : Expr → Prop} : ∀ es : List Expr, Expr.AllEvery P es ↔ ∀ x ∈ Expr.allNodes es, P x
  | [] => by simp [Expr.AllEvery, Expr.allNodes]
  | e :: es => by simp [Expr.AllEvery, Expr.allNodes, Expr.every_iff e, Expr.allEvery_iff es, or_imp, forall_and]

end

instance {P : Expr → Prop} [DecidablePred P] (e : Expr) : Decidable (e.Every P) :=
  decidable_of_iff _ (Expr.every_iff e).symm

mutual

/-- what holds of an expression and of all inside it holds so of all inside it -/
theorem Expr.Every.inside {P : Expr → Prop} : ∀ e : Expr, e.Every P → e.Every fun x => x.Every P
  | .constant _, h => h
  | .local _, h => h
  | .model _, h => h
  | .modelRoot, h => h
  | .member object _, h => ⟨h, Expr.Every.inside object h.2⟩
  | .index target key, h => ⟨h, Expr.Every.inside target h.2.1, Expr.Every.inside key h.2.2⟩
  | .callHelper _ arguments, h => ⟨h, Expr.AllEvery.inside arguments h.2⟩
  | .callMethod receiver _ arguments, h =>
    ⟨h, Expr.Every.inside receiver h.2.1, Expr.AllEvery.inside arguments h.2.2⟩
  | .array items, h => ⟨h, Expr.AllEvery.inside items h.2⟩
  | .unary _ operand, h => ⟨h, Expr.Every.inside operand h.2⟩
  | .update .., h => h
  | .binary left _ right, h => ⟨h, Expr.Every.inside left h.2.1, Expr.Every.inside right h.2.2⟩
  | .assign _ value, h => ⟨h, Expr.Every.inside value h.2⟩
  | .conditional test whenTrue whenFalse, h =>
    ⟨h, Expr.Every.inside test h.2.1, Expr.Every.inside whenTrue h.2.2.1, Expr.Every.inside whenFalse h.2.2.2⟩

theorem Expr.AllEvery.inside {P : Expr → Prop} :
    ∀ es : List Expr, Expr.AllEvery P es → Expr.AllEvery (fun x => x.Every P) es
  | [], _ => trivial
  | e :: es, h => ⟨Expr.Every.inside e h.1, Expr.AllEvery.inside es h.2⟩

end

/-! ## Operations -/

/-- the expressions that an operation itself evaluates, not those in its bodies -/
def Op.exprs : Op → List Expr
  | .emit value => [value]
  | .attributePart (.value value) => [value]
  | .declare _ init => init.toList
  | .eval value => [value]
  | .branch test _ _ => [test]
  | .loop _ init condition iteration _ => init.toList ++ [condition, iteration]
  | .each _ collection _ => [collection]
  | _ => []

/-- the markup that an operation holds: text, or the text around or between the values of an attribute -/
def Op.markup : Op → List String
  | .text s => [s]
  | .beginAttribute opening => [opening]
  | .attributePart (.text s) => [s]
  | .endAttribute closing => [closing]
  | _ => []

mutual

/-- an operation and those in its bodies -/
def Op.parts (op : Op) : List Op :=
  op ::
    match op with
    | .branch _ whenTrue whenFalse => Op.allParts whenTrue ++ Op.allParts whenFalse
    | .loop _ _ _ _ body => Op.allParts body
    | .each _ _ body => Op.allParts body
    | _ => []

def Op.allParts : List Op → List Op
  | [] => []
  | op :: ops => op.parts ++ Op.allParts ops

end

theorem Op.self_mem_parts (op : Op) : op ∈ op.parts := by
  rw [Op.parts.eq_def]
  exact List.mem_cons_self

/-! ## Views -/

/-- the fragment of a helper that the template declares -/
def Helper.fragment? : Helper → Option Fragment
  | .declared f => some f
  | .host _ => none

/-- the fragments of the declared helpers and of the sections -/
def View.fragments (v : View) : List Fragment :=
  v.helpers.filterMap (·.2.fragment?) ++ v.sections.map (·.2)

/-- all operations of a view, at whatever depth -/
def View.ops (v : View) : List Op :=
  Op.allParts v.program ++ v.fragments.flatMap fun f => Op.allParts f.program

/-- all expressions of a view, in whatever operation and at whatever depth -/
def View.nodes (v : View) : List Expr :=
  v.ops.flatMap fun op => op.exprs.flatMap Expr.nodes

theorem View.mem_ops_of_fragment {v : View} {f : Fragment} (hf : f ∈ v.fragments) {o : Op}
    (ho : o ∈ Op.allParts f.program) : o ∈ v.ops :=
  List.mem_append_right _ (List.mem_flatMap.2 ⟨f, hf, ho⟩)

theorem View.mem_fragments_of_helper {v : View} {name : String} {f : Fragment}
    (h : v.helpers.get? name = some (.declared f)) : f ∈ v.fragments :=
  List.mem_append_left _ (List.mem_filterMap.2 ⟨_, Table.mem_of_get? h, rfl⟩)

theorem View.mem_fragments_of_section {v : View} {name : String} {f : Fragment} (h : v.sections.get? name = some f) :
    f ∈ v.fragments :=
  List.mem_append_right _ (List.mem_map.2 ⟨_, Table.mem_of_get? h, rfl⟩)

/-- the markup that a view holds: the texts it writes, and those around and between the values of attributes -/
def View.markup (v : View) : List String :=
  v.ops.flatMap Op.markup

end TemplateView
