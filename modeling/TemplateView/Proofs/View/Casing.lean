/-
Casing and views. A casing is chosen before a template is compiled, and it decides nothing but names: whatever the source,
it is compiled under every casing or under none, and the view under a casing is the view with all names as written, its
properties and methods renamed in every expression (`casing_renames`). Locals, parameters, helpers, sections and texts keep
their names, and no operation comes or goes.
-/
import TemplateView.Proofs.Generation.Casing

namespace TemplateView

def Generated.recase (casing : Casing) (g : Generated) : Generated where
  program := Op.recaseAll casing g.program
  helpers := g.helpers.map fun p => (p.1, p.2.recase casing)
  sections := g.sections.map fun p => (p.1, p.2.recase casing)

/-- a helper of a host has no names of its own -/
def Helper.recase (casing : Casing) : Helper → Helper
  | .declared f => .declared (f.recase casing)
  | .host f => .host f

/-- the view with the properties and methods renamed in its program, its helpers and its sections -/
def View.recase (casing : Casing) (v : View) : View :=
  { v with
    program := Op.recaseAll casing v.program
    helpers := v.helpers.map fun p => (p.1, p.2.recase casing)
    sections := v.sections.map fun p => (p.1, p.2.recase casing) }

open Generation

/-- where a template is lowered directly, its programs under a casing are those with names as written, renamed -/
theorem Generated.Of.recase {casing : Casing} {t : Template} {g g' : Generated} {ops : List (SitedOp .identity)}
    {ops' : List (SitedOp casing)} (h : g.Of t ops) (h' : g'.Of t ops') (hops : RecasedOps casing ops ops') :
    g' = g.recase casing := by
  have htable : ∀ t : Table Declared, (t.map fun p => (p.1, p.2.fragment casing)) =
      (t.map fun p => (p.1, p.2.fragment .identity)).map fun p => (p.1, p.2.recase casing) := by
    intro t
    rw [List.map_map]
    exact List.map_congr_left fun p _ => congrArg (Prod.mk p.1) (recase_fragment casing p.2)
  obtain ⟨program, helpers, sections⟩ := g'
  rw [Generated.recase, h.program, h.helpers, h.sections, ← htable, ← htable, Generated.mk.injEq]
  exact ⟨h'.program.trans hops.pack, h'.helpers, h'.sections⟩

theorem Template.generate_recase (casing : Casing) (t : Template) :
    (t.generate casing).toOption = (t.generate .identity).toOption.map (Generated.recase casing) := by
  by_cases hd : t.inventory.duplicateHelpers = [] ∧ t.inventory.duplicateSections = []
  · have hi := generate_follows .identity hd.1 hd.2
    have hc := generate_follows casing hd.1 hd.2
    have hp := paired_sitedAll casing .empty t.segments
    cases hri : sitedAll .identity .empty t.segments with
    | ok r =>
      cases hrc : sitedAll casing .empty t.segments with
      | ok r' =>
        rw [hri, hrc] at hp
        rw [hri] at hi
        rw [hrc] at hc
        obtain ⟨g, hg, hof⟩ := hi
        obtain ⟨g', hg', hof'⟩ := hc
        rw [hg, hg']
        exact congrArg some (hof.recase hof' hp.1)
      | error c => rw [hri, hrc] at hp; exact hp.elim
    | error c =>
      cases hrc : sitedAll casing .empty t.segments with
      | ok r' => rw [hri, hrc] at hp; exact hp.elim
      | error c' =>
        rw [hri] at hi
        rw [hrc] at hc
        obtain ⟨e, he, -⟩ := hi
        obtain ⟨e', he', -⟩ := hc
        rw [he, he']
        rfl
  · -- what is declared twice is refused before any name is looked at
    have hnone : ∀ c, (t.generate c).toOption = none := by
      intro c
      cases h : t.generate c with
      | ok g => exact absurd (declares_once h) hd
      | error e => rfl
    rw [hnone, hnone]
    rfl

/-- the views of renamed programs are renamed -/
theorem Generated.view_recase (casing : Casing) (g : Generated) (inventory : Inventory) (depth : Nat) :
    (g.recase casing).view inventory depth = (g.view inventory depth).recase casing := by
  simp only [Generated.view, Generated.recase, View.recase, List.map_map]
  rfl

namespace View

/-- **Casing renames, and nothing else.** Every source is compiled under a casing exactly if it is compiled with all names
as written, and the view under the casing is then the other view with its properties and methods renamed, in every
expression of its program, its helpers and its sections; a property that gets the reserved name is the model itself. -/
theorem casing_renames (casing : Casing) (depth : Nat) (source : String) :
    (compile ⟨casing, depth⟩ source).toOption =
      (compile ⟨.identity, depth⟩ source).toOption.map (View.recase casing) := by
  rw [compile_toOption, compile_toOption, Option.map_bind]
  refine congrArg _ (funext fun t => ?_)
  rw [Function.comp, t.generate_recase casing, Option.map_map, Option.map_map]
  exact congrArg (Option.map · _) (funext fun g => g.view_recase casing _ _)

-- the local `Title` keeps its name, though a property of the model differs from it only in case
example :
    (compile ⟨.pascalToCamel, 4⟩ "@\x7bvar Title = Model;\x7d@Title.Name, @title, @Name").toOption.bind
      (fun v => (v.render 9 (.object [("title", .string "t"), ("name", .string "n")])).toOption) = some "n, t, n" := by
  decide +kernel

end View

end TemplateView
