/-
Text that a builder holds back. An `EagerBuilder` holds nothing back: it puts each text into the innermost body at once.
Whatever is called, in whatever order and however unbalanced, a builder answers as the eager one does and finishes with
the same program (`builder_refines_eager`). So no text is lost, written twice, split or put into another body.

`Builder.eager` is the eager builder that stands for a builder: its innermost body has the held text in it. Each call keeps
to that (`answer_eager`), whether it adds to the held text, puts it down or leaves it alone. The error of a refused literal
is the same for one more reason: while code is written, no text is held back (`HoldsInMarkup`).

Only a look at the unfinished program tells the two apart. There the held text stands on its own, although it is going to
join the text before it (`InPieces`).
-/
import Mathlib.Data.List.Forall2
import TemplateView.Proofs.Generation.Assembly

namespace TemplateView

/-- the names without the innermost scope, unless it is the only one -/
def Names.leave (n : Names) : Names :=
  match n.outer with
  | s :: ss => ⟨s, ss⟩
  | [] => n

/-! ## Calls as data -/

namespace Builder

/-- a call on a builder -/
inductive Call where
  | startMarkup
  | startCode
  | literal (text : String)
  /-- of any operation; escaped values and the pieces of attributes are written so -/
  | push (op : Op)
  | openBody
  | closeBody
  | pushScope
  | popScope
  | declare (name : String)
  | mode
  | isDeclared (name : String)
  | partialSource
  | error (cause : GenerationCause)

/-- what a call gives back -/
inductive Answer where
  | done
  /-- a literal that has no place -/
  | refusal (e : GenerationError)
  /-- the operations of a body that is closed -/
  | body (ops : List Op)
  | mode (m : Mode)
  | declared (yes : Bool)
  /-- the unfinished program -/
  | source (text : String)
  /-- a failure that the caller asked for, with the unfinished program -/
  | failure (e : GenerationError)

def answer (b : Builder) : Call → Answer × Builder
  | .startMarkup => (.done, b.startMarkup)
  | .startCode => (.done, b.startCode)
  | .literal text =>
    match b.literal text with
    | .ok b' => (.done, b')
    | .error e => (.refusal e, b)
  | .push op => (.done, b.push op)
  | .openBody => (.done, b.openBody)
  | .closeBody => b.closeBody.map .body id
  | .pushScope => (.done, b.pushScope)
  | .popScope => (.done, b.popScope)
  | .declare name => (.done, b.declare name)
  | .mode => (.mode b.mode, b)
  | .isDeclared name => (.declared (b.isDeclared name), b)
  | .partialSource => (.source b.partialSource, b)
  | .error cause => (.failure (b.error cause), b)

/-- the answers to calls that are made one after the other, and the builder behind them -/
def session {σ : Type} (answer : σ → Call → Answer × σ) (s : σ) : List Call → List Answer × σ
  | [] => ([], s)
  | call :: calls =>
    let (a, s) := answer s call
    (session answer s calls).map (a :: ·) id

end Builder

/-! ## The eager builder -/

/-- a builder that holds nothing back -/
structure EagerBuilder where
  mode : Mode
  /-- the operations of the innermost body -/
  top : List Op
  /-- those of the bodies around it, the outermost ones last -/
  below : List (List Op)
  names : Names

namespace EagerBuilder

def withLocals (locals : List String) : EagerBuilder := ⟨.markup, [], [], .ofLocals locals⟩

/-- operations with text behind them, which goes on with the text they end in -/
def joinText (text : String) : List Op → List Op
  | [] => [.text text]
  | [.text previous] => [.text (previous ++ text)]
  | op :: ops => op :: joinText text ops

/-- text at the end of the innermost body; no text is none -/
def write (e : EagerBuilder) (text : String) : EagerBuilder :=
  if text.isEmpty then e else { e with top := joinText text e.top }

def push (e : EagerBuilder) (op : Op) : EagerBuilder := { e with top := e.top ++ [op] }

def openBody (e : EagerBuilder) : EagerBuilder :=
  { e with top := [], below := e.top :: e.below, names := e.names.nest }

/-- without an open body there are no operations to give, and the outermost ones stay -/
def closeBody (e : EagerBuilder) : List Op × EagerBuilder :=
  match e.below with
  | ops :: below => (e.top, { e with top := ops, below, names := e.names.leave })
  | [] => ([], { e with names := e.names.leave })

/-- the operations of all bodies, the outermost ones first -/
def finish (e : EagerBuilder) : Program := e.below.reverse.flatten ++ e.top

def error (e : EagerBuilder) (cause : GenerationCause) : GenerationError := ⟨cause, Program.source e.finish⟩

def answer (e : EagerBuilder) : Builder.Call → Builder.Answer × EagerBuilder
  | .startMarkup => (.done, { e with mode := .markup })
  | .startCode => (.done, { e with mode := .code })
  | .literal text =>
    match e.mode with
    | .markup => (.done, e.write text)
    | .code => (.refusal (e.error (.strayMarkup text)), e)
  | .push op => (.done, e.push op)
  | .openBody => (.done, e.openBody)
  | .closeBody => e.closeBody.map .body id
  | .pushScope => (.done, { e with names := e.names.nest })
  | .popScope => (.done, { e with names := e.names.leave })
  | .declare name => (.done, { e with names := e.names.declare name })
  | .mode => (.mode e.mode, e)
  | .isDeclared name => (.declared (e.names.isDeclared name), e)
  | .partialSource => (.source (Program.source e.finish), e)
  | .error cause => (.failure (e.error cause), e)

/-- a builder joins the text that it puts down in the same way -/
theorem joinText_eq (text : String) (ops : List Op) : joinText text ops = Builder.appendText ops text := by
  fun_induction joinText text ops with
  | case1 => rfl
  | case2 previous => rfl
  | case3 op ops hlast ih =>
    cases ops with
    | nil =>
      cases op with
      | text previous => exact absurd rfl (hlast previous rfl)
      | _ => rfl
    | cons op' ops =>
      rw [ih]
      unfold Builder.appendText
      rw [List.getLast?_cons_cons, List.dropLast_cons_cons]
      split <;> rfl

end EagerBuilder

/-! ## What the unfinished program shows -/

/-- the text that operations end in may stand in two pieces -/
inductive InPieces : List Op → List Op → Prop
  | whole (ops : List Op) : InPieces ops ops
  | pieces (before : List Op) (s t : String) : InPieces (before ++ [.text s, .text t]) (before ++ [.text (s ++ t)])

theorem InPieces.append_left {ops joined : List Op} (h : InPieces ops joined) (before : List Op) :
    InPieces (before ++ ops) (before ++ joined) := by
  cases h with
  | whole => exact .whole _
  | pieces mid s t =>
    rw [← List.append_assoc, ← List.append_assoc]
    exact .pieces _ s t

theorem inPieces_appendText (ops : List Op) (text : String) :
    InPieces (ops ++ [.text text]) (Builder.appendText ops text) := by
  unfold Builder.appendText
  split
  · next previous hlast =>
    obtain ⟨before, rfl⟩ := List.getLast?_eq_some_iff.1 hlast
    rw [List.append_assoc, List.dropLast_concat]
    exact .pieces before previous text
  · exact .whole _

namespace Builder

/-- the answers are the same, but for text in two pieces where they show the unfinished program -/
inductive Answer.Alike : Answer → Answer → Prop
  | same (a : Answer) : Alike a a
  | source {ops joined : List Op} :
    InPieces ops joined → Alike (.source (Program.source ops)) (.source (Program.source joined))
  | failure {ops joined : List Op} (cause : GenerationCause) :
    InPieces ops joined → Alike (.failure ⟨cause, Program.source ops⟩) (.failure ⟨cause, Program.source joined⟩)

/-! ## The eager builder behind a builder -/

/-- a builder with the held text put down -/
def eager (b : Builder) : EagerBuilder := ⟨b.mode, b.written, b.outer, b.names⟩

/-- text is held back in markup only -/
def HoldsInMarkup (b : Builder) : Prop := b.mode = .code → b.pending = ""

@[simp] theorem mode_flush (b : Builder) : b.flush.mode = b.mode := by unfold flush; split <;> rfl

theorem written_congr {b b' : Builder} (hf : b'.frame = b.frame) (hp : b'.pending = b.pending) :
    b'.written = b.written := by
  rw [written_eq, written_eq, hf, hp]

theorem written_of_empty {b : Builder} (h : b.pending = "") : b.written = b.frame := by
  rw [written_eq, h]
  rfl

theorem finish_eager (b : Builder) : b.eager.finish = b.finish := by
  simp [eager, EagerBuilder.finish, finish, allOps, written]

/-- in the unfinished program, held text stands on its own -/
theorem inPieces_eager (b : Builder) :
    InPieces (b.allOps ++ if b.pending.isEmpty then [] else [.text b.pending]) b.eager.finish := by
  have hall : b.allOps = b.outer.reverse.flatten ++ b.frame := by simp [allOps]
  rw [hall]
  show InPieces _ (b.outer.reverse.flatten ++ b.written)
  rw [written_eq, List.append_assoc]
  refine InPieces.append_left ?_ _
  split
  · rw [List.append_nil]
    exact .whole _
  · exact inPieces_appendText b.frame b.pending

/-- a failure where no text is held back is that of the eager builder -/
theorem error_of_empty {b : Builder} (h : b.pending = "") (cause : GenerationCause) :
    b.error cause = b.eager.error cause := by
  have hshown : b.partialSource = Program.source b.eager.finish := by
    calc b.partialSource
      _ = Program.source b.allOps := by simp [partialSource, h]
      _ = Program.source b.finish := by rw [finish, flush_of_empty (String.isEmpty_iff.2 h)]
      _ = Program.source b.eager.finish := by rw [finish_eager]
  rw [error, hshown]
  rfl

theorem popScope_eq (b : Builder) :
    b.popScope = { b with scope := b.names.leave.scope, outerScopes := b.names.leave.outer } := by
  obtain ⟨mode, frame, outer, pending, scope, outerScopes⟩ := b
  cases outerScopes <;> rfl

/-! ## What each call does to it -/

theorem eager_of_empty {b : Builder} (h : b.pending = "") : b.eager = ⟨b.mode, b.frame, b.outer, b.names⟩ := by
  rw [eager, written_of_empty h]

theorem eager_flush (b : Builder) : b.flush.eager = b.eager := by simp [eager, written, names]

/-- scopes have no part in what is written -/
theorem eager_rescope (b : Builder) (n : Names) :
    ({ b with scope := n.scope, outerScopes := n.outer } : Builder).eager = { b.eager with names := n } := by
  have hwritten : ({ b with scope := n.scope, outerScopes := n.outer } : Builder).written = b.written :=
    written_congr rfl rfl
  rw [eager, hwritten]
  rfl

theorem eager_declare (b : Builder) (name : String) :
    (b.declare name).eager = { b.eager with names := b.names.declare name } :=
  b.eager_rescope (b.names.declare name)

theorem eager_withLocals (locals : List String) : (withLocals locals).eager = .withLocals locals := by
  have key : ∀ (ls : List String) (b : Builder),
      (ls.foldl declare b).eager = { b.eager with names := ls.foldl Names.declare b.names } := by
    intro ls
    induction ls with
    | nil => exact fun b => rfl
    | cons l ls ih =>
      intro b
      rw [List.foldl_cons, ih, eager_declare]
      rfl
  exact key locals empty

theorem eager_startMarkup (b : Builder) : b.startMarkup.eager = { b.eager with mode := .markup } := by
  rw [eager, written_startMarkup]
  rfl

theorem eager_startCode (b : Builder) : b.startCode.eager = { b.eager with mode := .code } := by
  rw [eager, written_startCode]
  simp [startCode, eager, names]

/-- where a builder holds text back, the eager one writes it -/
theorem eager_hold (b : Builder) (text : String) :
    ({ b with pending := b.pending ++ text } : Builder).eager = b.eager.write text := by
  rw [eager, written_pending]
  simp only [Op.add, EagerBuilder.write, EagerBuilder.joinText_eq]
  split <;> rfl

theorem eager_push (b : Builder) (op : Op) : (b.push op).eager = b.eager.push op := by
  rw [eager, written_push]
  simp [push, eager, names, EagerBuilder.push]

theorem eager_openBody (b : Builder) : b.openBody.eager = b.eager.openBody := by
  have hempty : b.openBody.pending = "" := b.pending_flush
  rw [eager_of_empty hempty]
  simp [openBody, pushScope, eager, names, Names.nest, EagerBuilder.openBody, written]

/-- a body that is closed has the text that was held for it -/
theorem eager_closeBody (b : Builder) : b.closeBody.map id eager = b.eager.closeBody := by
  have hpop : b.flush.popScope = { b.flush with scope := b.names.leave.scope, outerScopes := b.names.leave.outer } := by
    rw [popScope_eq, names_flush]
  cases ho : b.outer with
  | nil =>
    -- the held text is put down although there is no body to give
    calc b.closeBody.map id eager
      _ = ([], b.flush.popScope.eager) := by simp [closeBody, hpop, ho]
      _ = ([], { b.eager with names := b.names.leave }) := by rw [hpop, eager_rescope, eager_flush]
      _ = b.eager.closeBody := by simp [EagerBuilder.closeBody, eager, ho]
  | cons f fs =>
    have hempty : ({ b.flush.popScope with frame := f, outer := fs } : Builder).pending = "" := by
      rw [hpop]
      exact b.pending_flush
    calc b.closeBody.map id eager
      _ = (b.written, eager { b.flush.popScope with frame := f, outer := fs }) := by
        simp [closeBody, hpop, ho, written]
      _ = (b.written, ⟨b.mode, f, fs, b.names.leave⟩) := by
        rw [eager_of_empty hempty]
        simp [hpop, names]
      _ = b.eager.closeBody := by simp [EagerBuilder.closeBody, eager, ho]

theorem pending_closeBody (b : Builder) : b.closeBody.2.pending = "" := by
  simp only [closeBody, popScope_eq]
  split <;> exact b.pending_flush

/-! ## Sessions -/

/-- **A call does to a builder what it does to the eager one**, and answers alike. -/
theorem answer_eager {b : Builder} (h : b.HoldsInMarkup) (call : Call) :
    (b.answer call).1.Alike (b.eager.answer call).1 ∧ (b.answer call).2.eager = (b.eager.answer call).2 ∧
      (b.answer call).2.HoldsInMarkup := by
  cases call with
  | startMarkup => exact ⟨.same _, b.eager_startMarkup, nofun⟩
  | startCode => exact ⟨.same _, b.eager_startCode, fun _ => b.pending_flush⟩
  | literal text =>
    obtain ⟨mode, frame, outer, pending, scope, outerScopes⟩ := b
    cases mode with
    | markup => exact ⟨.same _, eager_hold _ text, nofun⟩
    | code =>
      -- the error lists the program, which has all text in it only because none is held back
      refine ⟨?_, rfl, h⟩
      show Answer.Alike (.refusal (error _ _)) _
      rw [error_of_empty (h rfl)]
      exact .same _
  | push op => exact ⟨.same _, b.eager_push op, fun _ => b.pending_flush⟩
  | openBody => exact ⟨.same _, b.eager_openBody, fun _ => b.pending_flush⟩
  | closeBody =>
    have hclose := b.eager_closeBody
    refine ⟨?_, congrArg Prod.snd hclose, fun _ => b.pending_closeBody⟩
    have hops : b.closeBody.1 = b.eager.closeBody.1 := congrArg Prod.fst hclose
    simp only [answer, EagerBuilder.answer, Prod.map_fst, hops]
    exact .same _
  | pushScope => exact ⟨.same _, b.eager_rescope b.names.nest, h⟩
  | popScope =>
    simp only [answer, popScope_eq]
    exact ⟨.same _, b.eager_rescope b.names.leave, h⟩
  | declare name => exact ⟨.same _, b.eager_declare name, h⟩
  | mode => exact ⟨.same _, rfl, h⟩
  | isDeclared name => exact ⟨.same _, rfl, h⟩
  | partialSource => exact ⟨.source b.inPieces_eager, rfl, h⟩
  | error cause => exact ⟨.failure cause b.inPieces_eager, rfl, h⟩

theorem session_eager {b : Builder} (h : b.HoldsInMarkup) (calls : List Call) :
    List.Forall₂ Answer.Alike (session answer b calls).1 (session EagerBuilder.answer b.eager calls).1 ∧
      (session answer b calls).2.eager = (session EagerBuilder.answer b.eager calls).2 := by
  induction calls generalizing b with
  | nil => exact ⟨.nil, rfl⟩
  | cons call calls ih =>
    obtain ⟨halike, hnext, hholds⟩ := answer_eager h call
    obtain ⟨hanswers, hlast⟩ := ih hholds
    rw [hnext] at hanswers hlast
    exact ⟨.cons halike hanswers, hlast⟩

/-- **Text that is held back is not missed.** Let any calls be made on a new builder, with locals or without, and on the
eager one, which puts each text down at once. Both answer alike: they accept the same literals and refuse the others with the
same error, and a body that is closed has the same operations. Then they finish with the same program. Only a look at the
unfinished program may show the last text in two pieces. -/
theorem builder_refines_eager (locals : List String) (calls : List Call) :
    List.Forall₂ Answer.Alike (session answer (withLocals locals) calls).1
        (session EagerBuilder.answer (.withLocals locals) calls).1 ∧
      (session answer (withLocals locals) calls).2.finish =
        (session EagerBuilder.answer (.withLocals locals) calls).2.finish := by
  have hnew : (withLocals locals).eager = .withLocals locals := eager_withLocals locals
  have hholds : (withLocals locals).HoldsInMarkup := by
    intro hcode
    have hmarkup : (withLocals locals).mode = .markup := congrArg EagerBuilder.mode hnew
    rw [hmarkup] at hcode
    cases hcode
  obtain ⟨hanswers, hlast⟩ := session_eager hholds calls
  rw [hnew] at hanswers hlast
  refine ⟨hanswers, ?_⟩
  rw [← finish_eager, hlast]

example :
    let b := (session answer empty [.literal "a", .openBody, .closeBody, .closeBody, .literal "b"]).2
    b.partialSource = Program.source [.text "a", .text "b"] ∧ b.finish = [.text "ab"] :=
  ⟨rfl, rfl⟩

end Builder

end TemplateView
