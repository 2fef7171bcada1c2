/-
Two runs side by side: one that walks a template and one of its program. `Mirror` says how they differ: the program's run
has further scopes without variables, one for each `else if` that is under way, and it collects an attribute in its state
where the walk keeps a list. `Sim` says that two steps end alike, in results and runs that are related; it has one rule for
each step.
-/
import TemplateView.Proofs.Run.Watched

namespace TemplateView

open Execution

/-! ## Scopes with empty ones between -/

/-- the scopes with empty ones where a mark stands, from the innermost on -/
def Scopes.pad : List Bool → Scopes → Scopes
  | [], s => s
  | true :: marks, s => [] :: pad marks s
  | false :: marks, [] => pad marks []
  | false :: marks, t :: ts => t :: pad marks ts

namespace Scopes

theorem lookup?_cons (name : String) (t : Table Value) (s : Scopes) :
    lookup? name (t :: s) = (t.get? name).or (s.lookup? name) := by
  simp only [lookup?, List.findSome?_cons]
  cases t.get? name <;> rfl

theorem lookup?_pad (name : String) : ∀ (marks : List Bool) (s : Scopes), (pad marks s).lookup? name = s.lookup? name
  | [], s => rfl
  | true :: marks, s => lookup?_pad name marks s
  | false :: marks, [] => lookup?_pad name marks []
  | false :: marks, t :: ts => by rw [pad, lookup?_cons, lookup?_cons, lookup?_pad name marks ts]

theorem assign?_pad (name : String) (v : Value) :
    ∀ (marks : List Bool) (s : Scopes), (pad marks s).assign? name v = (s.assign? name v).map (pad marks)
  | [], s => by
    rw [pad, show pad [] = id from rfl, Option.map_id]
    rfl
  | true :: marks, s => by
    rw [pad, assign?, if_neg (by simp [Table.contains]), assign?_pad name v marks s, Option.map_map]
    rfl
  | false :: marks, [] => by
    have h := assign?_pad name v marks []
    rw [assign?, Option.map_none] at h
    rw [pad, h]
    rfl
  | false :: marks, t :: ts => by
    rw [pad, assign?, assign?]
    split
    · rfl
    · rw [assign?_pad name v marks ts, Option.map_map, Option.map_map]
      rfl

theorem length_assign? {name : String} {v : Value} {s s' : Scopes} (h : s.assign? name v = some s') :
    s'.length = s.length :=
  length_of_shape (shape_assign? h)

end Scopes

/-! ## Runs side by side -/

/-- the run `rc` of a program beside the run `rw` of a walk -/
structure Mirror (marks : List Bool) (pending : Option OpenAttribute) (rw rc : Run) : Prop where
  scopes : rc.scopes = rw.scopes.pad marks
  html : rc.html = rw.html
  /-- the walk holds no attribute -/
  plain : rw.pending = none
  pending : rc.pending = pending
  /-- there is a scope below those that correspond -/
  deep : marks.count false < rw.scopes.length

/-- two ends are alike: one error, or results and runs that are related -/
def Sim {α β : Type} (Q : α → β → Run → Run → Prop) (x : Except Halt (α × Run)) (y : Except Halt (β × Run)) : Prop :=
  match x, y with
  | .ok (a, r), .ok (b, r') => Q a b r r'
  | .error e, .error e' => e = e'
  | .ok _, .error _ => False
  | .error _, .ok _ => False

section

variable {α β γ δ : Type} {P Q : α → β → Run → Run → Prop} {R : γ → δ → Run → Run → Prop} {r r' : Run}

theorem sim_pure {a : α} {b : β} (h : Q a b r r') : Sim Q ((pure a : Execution α) r) ((pure b : Execution β) r') := h

theorem Sim.mono {x : Except Halt (α × Run)} {y : Except Halt (β × Run)} (h : Sim P x y)
    (hPQ : ∀ a b s s', P a b s s' → Q a b s s') : Sim Q x y := by
  unfold Sim at *
  split at h
  · exact hPQ _ _ _ _ h
  · exact h
  · exact h
  · exact h

theorem sim_bind {m : Execution α} {m' : Execution β} {f : α → Execution γ} {f' : β → Execution δ}
    (hm : Sim P (m r) (m' r')) (hf : ∀ a b s s', P a b s s' → Sim R (f a s) (f' b s')) :
    Sim R ((m >>= f) r) ((m' >>= f') r') := by
  rw [bind_run, bind_run]
  unfold Sim at hm
  cases h : m r with
  | ok p =>
    cases h' : m' r' with
    | ok q => rw [h, h'] at hm; exact hf p.1 q.1 p.2 q.2 hm
    | error e => rw [h, h'] at hm; exact hm.elim
  | error e =>
    cases h' : m' r' with
    | ok q => rw [h, h'] at hm; exact hm.elim
    | error e' => rw [h, h'] at hm; exact hm

/-- a step of the second run alone -/
theorem sim_right {x : Except Halt (α × Run)} {Q : α → δ → Run → Run → Prop} {m' : Execution β} {f' : β → Execution δ}
    {b : β} {s' : Run} (hm : m' r' = .ok (b, s')) (h : Sim Q x (f' b s')) : Sim Q x ((m' >>= f') r') := by
  rw [bind_run, hm]
  exact h

theorem sim_ofResult {Q : α → α → Run → Run → Prop} (x : Except RenderError α) (h : ∀ a, Q a a r r') :
    Sim Q ((ofResult x : Execution α) r) ((ofResult x : Execution α) r') := by
  cases x with
  | ok a => exact h a
  | error e => rfl

theorem sim_lift {Q : α → α → Run → Run → Prop} (x : Except Halt α) (h : ∀ a, Q a a r r') :
    Sim Q ((StateT.lift x : Execution α) r) ((StateT.lift x : Execution α) r') := by
  rw [lift_run, lift_run]
  cases x with
  | ok a => exact h a
  | error e => rfl

/-- what the second of two steps is known to leave behind -/
theorem Sim.and_ends {I : Run → Prop} {m : Execution α} {m' : Execution β} (h : Sim Q (m r) (m' r'))
    (hm : Ends (fun _ => True) (fun _ s' => I s') m' r') : Sim (fun a b s s' => Q a b s s' ∧ I s') (m r) (m' r') := by
  unfold Sim at *
  split at h
  · next hs => exact ⟨h, ends_ok hm hs⟩
  · exact h
  · exact h
  · exact h

end

/-! ## Steps side by side -/

variable {marks : List Bool} {p : Option OpenAttribute} {names : Names} {r r' : Run}

/-- the runs correspond, and the variables are those declared -/
structure Mirrors (marks : List Bool) (p : Option OpenAttribute) (names : Names) (r r' : Run) : Prop where
  mirror : Mirror marks p r r'
  fits : names.Fits r'.scopes

theorem sim_lookup (name : String) (h : Mirrors marks p names r r') :
    Sim (fun v w s s' => v = w ∧ Mirrors marks p names s s') (lookup name r) (lookup name r') := by
  have hl : r'.scopes.lookup? name = r.scopes.lookup? name := by rw [h.mirror.scopes, Scopes.lookup?_pad]
  refine sim_bind (P := fun a b s s' => a = r ∧ b = r' ∧ s = r ∧ s' = r') ⟨rfl, rfl, rfl, rfl⟩ ?_
  intro _ _ _ _ hx
  obtain ⟨rfl, rfl, rfl, rfl⟩ := hx
  rw [hl]
  cases Scopes.lookup? name _ with
  | some v => exact ⟨rfl, h⟩
  | none => rfl

theorem sim_assign (name : String) (v : Value) (h : Mirrors marks p names r r') :
    Sim (fun _ _ s s' => Mirrors marks p names s s') (assign name v r) (assign name v r') := by
  have ha : r'.scopes.assign? name v = (r.scopes.assign? name v).map (Scopes.pad marks) := by
    rw [h.mirror.scopes, Scopes.assign?_pad]
  refine sim_bind (P := fun a b s s' => a = r ∧ b = r' ∧ s = r ∧ s' = r') ⟨rfl, rfl, rfl, rfl⟩ ?_
  intro _ _ _ _ hx
  obtain ⟨rfl, rfl, rfl, rfl⟩ := hx
  rename_i r r'
  cases hs : r.scopes.assign? name v with
  | none => rw [ha, hs]; rfl
  | some s =>
    rw [ha, hs]
    have hshape : (s.pad marks).shape = r'.scopes.shape := Scopes.shape_assign? (by rw [ha, hs]; rfl)
    exact ⟨⟨rfl, h.mirror.html, h.mirror.plain, h.mirror.pending, by
      show _ < s.length
      rw [Scopes.length_assign? hs]
      exact h.mirror.deep⟩, h.fits.shape hshape⟩

theorem sim_update (name : String) (step : Step) (fixity : Fixity) (h : Mirrors marks p names r r') :
    Sim (fun v w s s' => v = w ∧ Mirrors marks p names s s') (update name step fixity r) (update name step fixity r') := by
  refine sim_bind (sim_lookup name h) ?_
  intro v _ s s' hx
  obtain ⟨rfl, hs⟩ := hx
  exact sim_bind (sim_assign name _ hs) fun _ _ _ _ ht => sim_pure ⟨rfl, ht⟩

theorem sim_write (s : String) (h : Mirrors marks p names r r') :
    Sim (fun _ _ s s' => Mirrors marks p names s s') (write s r) (write s r') :=
  ⟨⟨h.mirror.scopes, congrArg (· ++ s) h.mirror.html, h.mirror.plain, h.mirror.pending, h.mirror.deep⟩, h.fits⟩

/-- a declaration, where the innermost scopes correspond -/
theorem sim_declare (name : String) (v : Value) (hm : marks.head? ≠ some true) (h : Mirrors marks p names r r') :
    Sim (fun _ _ s s' => Mirrors marks p (names.declare name) s s') (changeScopes (·.declare name v) r)
      (changeScopes (·.declare name v) r') := by
  have hd : r'.scopes.declare name v = (r.scopes.declare name v).pad marks := by
    rw [h.mirror.scopes]
    have hl := h.mirror.deep
    cases hs : r.scopes with
    | nil => rw [hs] at hl; cases hl
    | cons t ts =>
      cases marks with
      | nil => rfl
      | cons mark marks =>
        cases mark with
        | true => exact absurd rfl hm
        | false => rfl
  have hl : (r.scopes.declare name v).length = r.scopes.length := by cases r.scopes <;> rfl
  exact ⟨⟨hd, h.mirror.html, h.mirror.plain, h.mirror.pending, by
    show _ < (r.scopes.declare name v).length
    rw [hl]; exact h.mirror.deep⟩, h.fits.declare name v⟩

theorem head?_unmarked (marks : List Bool) : (false :: marks).head? ≠ some true := by simp

/-- a body with a scope of its own in both runs -/
theorem sim_inScope {inner : Names} (after : Names) {m m' : Execution Unit} (hb : ∀ r, KeepsBelow m' r)
    (hi : ∀ s, names.Fits s → inner.Fits s.enter)
    (hm : ∀ r r', Mirrors (false :: marks) p inner r r' →
      Sim (fun _ _ s s' => Mirrors (false :: marks) p after s s') (m r) (m' r'))
    (h : Mirrors marks p names r r') :
    Sim (fun _ _ s s' => Mirrors marks p names s s') (inScope m r) (inScope m' r') := by
  have he : Mirrors (false :: marks) p inner { r with scopes := r.scopes.enter } { r' with scopes := r'.scopes.enter } :=
    ⟨⟨by show r'.scopes.enter = _; rw [h.mirror.scopes]; rfl, h.mirror.html, h.mirror.plain, h.mirror.pending, by
      have := h.mirror.deep
      simp only [List.count_cons_self, Scopes.enter, List.length_cons]
      omega⟩, hi _ h.fits⟩
  have hin : Sim (fun _ _ s s' => Mirror marks p s s') (inScope m r) (inScope m' r') := by
    refine sim_bind (P := fun _ _ s s' => Mirrors (false :: marks) p inner s s') he fun _ _ s s' hs => ?_
    refine sim_bind (hm s s' hs) fun _ _ t t' ht => ?_
    have hd := ht.mirror.deep
    rw [List.count_cons_self] at hd
    cases hts : t.scopes with
    | nil => rw [hts] at hd; cases hd
    | cons table tables =>
      rw [hts, List.length_cons] at hd
      have hsc := ht.mirror.scopes
      rw [hts] at hsc
      refine ⟨?_, ht.mirror.html, ht.mirror.plain, ht.mirror.pending, ?_⟩
      · show t'.scopes.leave = t.scopes.leave.pad marks
        rw [hsc, hts]; rfl
      · show _ < t.scopes.leave.length
        rw [hts]
        show _ < tables.length
        omega
  exact (hin.and_ends (shape_inScope hb r')).mono fun _ _ _ _ hs => ⟨hs.1, h.fits.shape hs.2⟩

/-- a body that has a scope of its own in the program's run alone -/
theorem sim_inScope_right {m m' : Execution Unit} (hb : ∀ r, KeepsBelow m' r)
    (hm : ∀ r r', Mirrors (true :: marks) p names r r' →
      Sim (fun _ _ s s' => Mirrors (true :: marks) p names s s') (m r) (m' r'))
    (h : Mirrors marks p names r r') :
    Sim (fun _ _ s s' => Mirrors marks p names s s') (m r) (inScope m' r') := by
  have he : Mirrors (true :: marks) p names r { r' with scopes := r'.scopes.enter } :=
    ⟨⟨by show r'.scopes.enter = _; rw [h.mirror.scopes]; rfl, h.mirror.html, h.mirror.plain, h.mirror.pending, by
      rw [List.count_cons_of_ne (by decide)]; exact h.mirror.deep⟩, h.fits.enter_same⟩
  have hin : Sim (fun _ _ s s' => Mirror marks p s s') (m r) (inScope m' r') := by
    have hp : m r = ((pure () : Execution Unit) >>= fun _ => m >>= fun u => pure u) r := by
      rw [pure_bind, bind_pure]
    rw [hp]
    refine sim_bind (P := fun _ _ s s' => Mirrors (true :: marks) p names s s') he fun _ _ s s' hs => ?_
    refine sim_bind (hm s s' hs) fun _ _ t t' ht => ?_
    refine ⟨?_, ht.mirror.html, ht.mirror.plain, ht.mirror.pending, ?_⟩
    · show t'.scopes.leave = t.scopes.pad marks
      rw [ht.mirror.scopes]; rfl
    · have := ht.mirror.deep
      rwa [List.count_cons_of_ne (by decide)] at this
  exact (hin.and_ends (shape_inScope hb r')).mono fun _ _ _ _ hs => ⟨hs.1, h.fits.shape hs.2⟩

/-! ## Loops -/

theorem sim_repeatWhile {I : Run → Run → Prop} {condition condition' : Execution Bool} {body body' : Execution Unit}
    (hc : ∀ r r', I r r' → Sim (fun b b' s s' => b = b' ∧ I s s') (condition r) (condition' r'))
    (hb : ∀ r r', I r r' → Sim (fun _ _ s s' => I s s') (body r) (body' r')) (n : Nat) :
    ∀ r r', I r r' →
      Sim (fun _ _ s s' => I s s') (repeatWhile condition body n r) (repeatWhile condition' body' n r') := by
  induction n with
  | zero => exact fun _ _ _ => rfl
  | succ n ih =>
    intro r r' h
    rw [repeatWhile, repeatWhile]
    refine sim_bind (hc r r' h) ?_
    intro b _ s s' hx
    obtain ⟨rfl, hs⟩ := hx
    cases b with
    | true => exact sim_bind (hb s s' hs) fun _ _ t t' ht => ih t t' ht
    | false => exact sim_pure hs

theorem sim_forM {α : Type} {I : Run → Run → Prop} {f f' : α → Execution Unit} (items : List α)
    (hf : ∀ a r r', I r r' → Sim (fun _ _ s s' => I s s') (f a r) (f' a r')) :
    ∀ r r', I r r' → Sim (fun _ _ s s' => I s s') (items.forM f r) (items.forM f' r') := by
  induction items with
  | nil => exact fun _ _ h => sim_pure h
  | cons a as ih =>
    intro r r' h
    show Sim (fun _ _ s s' => I s s') ((f a >>= fun _ => as.forM f) r) ((f' a >>= fun _ => as.forM f') r')
    exact sim_bind (hf a r r' h) fun _ _ s s' hs => ih s s' hs

end TemplateView
