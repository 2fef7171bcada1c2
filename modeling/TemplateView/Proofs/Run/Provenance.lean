/-
Where written markup comes from. Markup is assembled from pieces: markup of the template, the space between parts of an
attribute, and escaped text. `Execution` keeps it so: if the calls that a program makes give only assembled markup, and
all raw markup in the variables is assembled, then the program writes assembled markup and leaves such variables.

Raw markup inside values is the point at issue. It comes back from every call, and travels through variables, arrays,
members and operators; `Value.RawsAre` follows it there.
-/
import TemplateView.Inventory
import TemplateView.Proofs.Program.Parts
import TemplateView.Proofs.Run.Outcome
import TemplateView.Proofs.Value.Markup

namespace TemplateView

/-! ## Pieces -/

/-- a piece of written markup -/
inductive Piece where
  /-- markup that the template holds -/
  | markup (s : String)
  /-- the space between the parts of an attribute -/
  | space
  | escaped (s : String)

namespace Piece

/-- the piece as it is written -/
def text : Piece → String
  | markup s => s
  | space => " "
  | escaped s => escapeHtml s

/-- markup is one of the given texts -/
def IsFrom (sources : List String) : Piece → Prop
  | markup s => s ∈ sources
  | space => True
  | escaped _ => True

end Piece

/-- the text is a concatenation of pieces -/
def Assembled (sources : List String) (html : String) : Prop :=
  ∃ pieces : List Piece, (∀ p ∈ pieces, p.IsFrom sources) ∧ html = String.join (pieces.map Piece.text)

/-- the characters that end a text or the value of an attribute -/
def delimiters : List Char := ['<', '>', '\'', '"']

theorem not_delimiter_of_all {cs : List Char} (h : cs.all (!delimiters.contains ·) = true) {d : Char} (hd : d ∈ cs) :
    d ∉ delimiters := by
  simpa using List.all_eq_true.1 h d hd

theorem escapeChar_not_delimiter {c d : Char} (h : d ∈ escapeChar c) : d ∉ delimiters := by
  unfold escapeChar at h
  split at h
  all_goals try exact not_delimiter_of_all (by decide) h
  next h₁ h₂ h₃ h₄ h₅ =>
    rw [List.mem_singleton.1 h]
    simp only [delimiters, List.mem_cons, List.not_mem_nil, or_false, not_or]
    exact ⟨h₂, h₃, h₄, h₅⟩

/-- escaped text ends neither a text nor the value of an attribute -/
theorem escapeHtml_not_delimiter {s : String} {c : Char} (h : c ∈ (escapeHtml s).toList) : c ∉ delimiters := by
  rw [escapeHtml, String.toList_ofList, List.mem_flatMap] at h
  obtain ⟨d, -, hc⟩ := h
  exact escapeChar_not_delimiter hc

variable {sources : List String}

theorem assembled_empty : Assembled sources "" := ⟨[], nofun, rfl⟩

theorem assembled_piece {p : Piece} (h : p.IsFrom sources) : Assembled sources p.text :=
  ⟨[p], by simpa using h, by simp [String.join]⟩

theorem assembled_markup {s : String} (h : s ∈ sources) : Assembled sources s := assembled_piece (p := .markup s) h

theorem assembled_escaped (s : String) : Assembled sources (escapeHtml s) := assembled_piece (p := .escaped s) trivial

theorem Assembled.append {a b : String} (ha : Assembled sources a) (hb : Assembled sources b) :
    Assembled sources (a ++ b) := by
  obtain ⟨ps, hp, rfl⟩ := ha
  obtain ⟨qs, hq, rfl⟩ := hb
  refine ⟨ps ++ qs, fun p h => (List.mem_append.1 h).elim (hp p) (hq p), ?_⟩
  rw [List.map_append, String.join_append]

theorem join_cons_cons (sep p q : String) (ps : List String) :
    Text.join sep (p :: q :: ps) = p ++ sep ++ Text.join sep (q :: ps) := by
  simp [Text.join, Text.joinWith, String.ofList_append, String.append_assoc]

theorem assembled_join {parts : List String} (h : ∀ p ∈ parts, Assembled sources p) :
    Assembled sources (Text.join " " parts) := by
  induction parts with
  | nil => exact assembled_empty
  | cons p ps ih =>
    cases ps with
    | nil => simpa [Text.join, Text.joinWith] using h p
    | cons q ps =>
      rw [join_cons_cons]
      refine ((h p List.mem_cons_self).append (assembled_piece (p := .space) trivial)).append (ih fun r hr => ?_)
      exact h r (List.mem_cons_of_mem p hr)

/-- what is written for a value is assembled if the raw markup in it is -/
theorem assembled_shown {v : Value} (h : v.RawsAre (Assembled sources)) : Assembled sources v.escaped := by
  cases v with
  | null => exact assembled_empty
  | raw markup => exact Value.rawsAre_raw.1 h
  | _ => exact assembled_escaped _

/-! ## Runs -/

/-- all markup of a run is assembled: in its variables, written, and held for an attribute -/
structure Run.Sourced (sources : List String) (r : Run) : Prop where
  scopes : ∀ t ∈ r.scopes, ∀ p ∈ t, p.2.RawsAre (Assembled sources)
  html : Assembled sources r.html
  pending : ∀ a, r.pending = some a → Assembled sources a.opening ∧ ∀ p ∈ a.parts, Assembled sources p

/-- what a program reads and the calls it makes give only assembled markup; builtins may not be called -/
structure Surroundings.Sourced (sources : List String) (env : Surroundings) : Prop where
  model : env.model.RawsAre (Assembled sources)
  call : ∀ name arguments v, name ∉ Inventory.builtins → (∀ a ∈ arguments, a.RawsAre (Assembled sources)) →
    env.call name arguments = .ok v → v.RawsAre (Assembled sources)

/-- the expression itself brings in no markup: constants are plain, and no builtin is called -/
def Expr.BringsNone : Expr → Prop
  | .constant v => v.raws = []
  | .callHelper name _ => name ∉ Inventory.builtins
  | _ => True

/-- the operation's markup is among the sources, and its expressions bring in none -/
def Op.Sourced (sources : List String) (op : Op) : Prop :=
  (∀ s ∈ op.markup, s ∈ sources) ∧ ∀ e ∈ op.exprs, e.Every Expr.BringsNone

namespace Scopes

theorem mem_of_lookup? {s : Scopes} {name : String} {v : Value} (h : s.lookup? name = some v) :
    ∃ t ∈ s, (name, v) ∈ t := by
  obtain ⟨t, ht, hv⟩ := List.exists_of_findSome?_eq_some h
  exact ⟨t, ht, Table.mem_of_get? hv⟩

theorem mem_of_mem_assign? {name : String} {v : Value} : ∀ {s s' : Scopes}, s.assign? name v = some s' →
    ∀ t' ∈ s', ∀ p ∈ t', p = (name, v) ∨ ∃ t ∈ s, p ∈ t
  | t :: ts, s', h, t', ht', p, hp => by
    rw [assign?] at h
    split at h
    · cases h
      rcases List.mem_cons.1 ht' with rfl | ht'
      · exact (Table.mem_insert hp).imp_right fun h => ⟨t, List.mem_cons_self, h⟩
      · exact Or.inr ⟨t', List.mem_cons_of_mem t ht', hp⟩
    · obtain ⟨s₁, hs₁, rfl⟩ := Option.map_eq_some_iff.1 h
      rcases List.mem_cons.1 ht' with rfl | ht'
      · exact Or.inr ⟨t', List.mem_cons_self, hp⟩
      · rcases mem_of_mem_assign? hs₁ t' ht' p hp with h | ⟨t₁, h₁, h₂⟩
        · exact Or.inl h
        · exact Or.inr ⟨t₁, List.mem_cons_of_mem t h₁, h₂⟩

end Scopes

open Execution

variable {env : Surroundings} {r : Run}

theorem Run.Sourced.declare (h : r.Sourced sources) (name : String) {v : Value}
    (hv : v.RawsAre (Assembled sources)) : Run.Sourced sources { r with scopes := r.scopes.declare name v } where
  scopes := by
    intro t ht p hp
    cases hs : r.scopes with
    | nil => rw [hs] at ht; cases ht
    | cons t₀ ts =>
      simp only [hs, Scopes.declare, List.mem_cons] at ht
      rcases ht with rfl | ht
      · rcases Table.mem_insert hp with rfl | hp
        · exact hv
        · exact h.scopes t₀ (by rw [hs]; exact List.mem_cons_self) p hp
      · exact h.scopes t (by rw [hs]; exact List.mem_cons_of_mem t₀ ht) p hp
  html := h.html
  pending := h.pending

theorem Run.Sourced.enter (h : r.Sourced sources) : Run.Sourced sources { r with scopes := r.scopes.enter } where
  scopes := by
    intro t ht p hp
    rcases List.mem_cons.1 ht with rfl | ht
    · cases hp
    · exact h.scopes t ht p hp
  html := h.html
  pending := h.pending

theorem Run.Sourced.leave (h : r.Sourced sources) : Run.Sourced sources { r with scopes := r.scopes.leave } where
  scopes := fun t ht => h.scopes t (List.mem_of_mem_tail ht)
  html := h.html
  pending := h.pending

theorem Run.Sourced.write (h : r.Sourced sources) {s : String} (hs : Assembled sources s) :
    Run.Sourced sources { r with html := r.html ++ s } :=
  ⟨h.scopes, h.html.append hs, h.pending⟩

theorem Run.Sourced.addPart (h : r.Sourced sources) {s : String} (hs : Assembled sources s) :
    (r.addPart s).Sourced sources := by
  unfold Run.addPart
  split
  · exact h
  · refine ⟨h.scopes, h.html, fun a ha => ?_⟩
    obtain ⟨a₀, ha₀, rfl⟩ := Option.map_eq_some_iff.1 ha
    obtain ⟨ho, hp⟩ := h.pending a₀ ha₀
    refine ⟨ho, fun p hp' => ?_⟩
    rcases List.mem_append.1 hp' with hp' | hp'
    · exact hp p hp'
    · rw [List.mem_singleton.1 hp']; exact hs

theorem Run.Sourced.closeAttribute (h : r.Sourced sources) {closing : String} (hc : Assembled sources closing) :
    (r.closeAttribute closing).Sourced sources := by
  unfold Run.closeAttribute
  split
  · exact h
  · next a ha =>
    obtain ⟨ho, hp⟩ := h.pending a ha
    refine ⟨h.scopes, h.html.append ?_, nofun⟩
    unfold Run.attributeText
    split
    · exact assembled_empty
    · exact (ho.append (assembled_join hp)).append hc

/-! ## Expressions -/

/-- a step gives a value with only assembled markup, and leaves a run with only assembled markup -/
abbrev Execution.Keeps (sources : List String) (m : Execution Value) (r : Run) : Prop :=
  Ends (fun _ => True) (fun v r' => v.RawsAre (Assembled sources) ∧ r'.Sourced sources) m r

theorem keeps_update (name : String) (step : Step) (fixity : Fixity) (h : r.Sourced sources) :
    Keeps sources (update name step fixity) r := by
  refine ends_bind (ends_lookup (Q := fun _ r' => r'.Sourced sources) (fun _ _ => h) fun _ => trivial) fun v r₁ h₁ => ?_
  refine ends_bind (P := fun _ r' => r'.Sourced sources) (ends_assign (fun s hs => ?_) fun _ => trivial) fun _ _ h₂ => ?_
  · refine ⟨fun t ht p hp => ?_, h₁.html, h₁.pending⟩
    rcases Scopes.mem_of_mem_assign? hs t ht p hp with rfl | ⟨t₀, h₀, hp⟩
    · exact Value.rawsAre_number _
    · exact h₁.scopes t₀ h₀ p hp
  · exact ends_pure ⟨Value.rawsAre_number _, h₂⟩

theorem keeps_assign (name : String) {v : Value} (hv : v.RawsAre (Assembled sources)) (h : r.Sourced sources) :
    Ends (fun _ => True) (fun _ r' => r'.Sourced sources) (assign name v) r := by
  refine ends_assign (fun s hs => ⟨fun t ht p hp => ?_, h.html, h.pending⟩) fun _ => trivial
  rcases Scopes.mem_of_mem_assign? hs t ht p hp with rfl | ⟨t₀, h₀, hp⟩
  · exact hv
  · exact h.scopes t₀ h₀ p hp

mutual

/-- evaluation brings in no markup -/
theorem keeps_eval (henv : env.Sourced sources) : ∀ (e : Expr), e.Every Expr.BringsNone → ∀ r : Run,
    r.Sourced sources → Keeps sources (e.eval env) r
  | .constant v, he, r, hr => ends_pure ⟨Value.rawsAre_of_raws_eq_nil he, hr⟩
  | .local name, _, r, hr => by
    refine ends_lookup (fun v hv => ⟨?_, hr⟩) fun _ => trivial
    obtain ⟨t, ht, hp⟩ := Scopes.mem_of_lookup? hv
    exact hr.scopes t ht _ hp
  | .model name, _, r, hr => ends_pure ⟨Value.rawsAre_property henv.model name, hr⟩
  | .modelRoot, _, r, hr => ends_pure ⟨henv.model, hr⟩
  | .member object name, he, r, hr => by
    rw [Expr.eval]
    refine ends_bind (keeps_eval henv object he.2 r hr) fun v r₁ ⟨hv, h₁⟩ => ?_
    exact ends_ofResult (fun w hw => ⟨Value.rawsAre_member hv hw, h₁⟩) fun _ _ => trivial
  | .index target key, he, r, hr => by
    rw [Expr.eval]
    refine ends_bind (keeps_eval henv target he.2.1 r hr) fun v r₁ ⟨hv, h₁⟩ => ?_
    refine ends_bind (keeps_eval henv key he.2.2 r₁ h₁) fun k r₂ ⟨_, h₂⟩ => ?_
    exact ends_ofResult (fun w hw => ⟨Value.rawsAre_index hv hw, h₂⟩) fun _ _ => trivial
  | .callHelper name arguments, he, r, hr => by
    rw [Expr.eval]
    refine ends_bind (keeps_evalAll henv arguments he.2 r hr) fun vs r₁ ⟨hv, h₁⟩ => ?_
    exact ends_lift (fun w hw => ⟨henv.call name vs w he.1 hv hw, h₁⟩) fun _ _ => trivial
  | .callMethod receiver name arguments, he, r, hr => by
    rw [Expr.eval]
    refine ends_bind (keeps_eval henv receiver he.2.1 r hr) fun v r₁ ⟨hv, h₁⟩ => ?_
    refine ends_bind (keeps_evalAll henv arguments he.2.2 r₁ h₁) fun vs r₂ ⟨_, h₂⟩ => ?_
    exact ends_ofResult (fun w hw => ⟨Value.rawsAre_callMethod hv hw, h₂⟩) fun _ _ => trivial
  | .array items, he, r, hr => by
    rw [Expr.eval]
    refine ends_bind (keeps_evalAll henv items he.2 r hr) fun vs r₁ ⟨hv, h₁⟩ => ?_
    exact ends_pure ⟨Value.rawsAre_array.2 hv, h₁⟩
  | .unary op operand, he, r, hr => by
    rw [Expr.eval]
    refine ends_bind (keeps_eval henv operand he.2 r hr) fun v r₁ ⟨hv, h₁⟩ => ?_
    cases op with
    | not => exact ends_pure ⟨Value.rawsAre_bool _, h₁⟩
    | negate => exact ends_ofResult (fun w hw => ⟨Value.rawsAre_negate hw, h₁⟩) fun _ _ => trivial
    | new => exact ends_pure ⟨hv, h₁⟩
  | .update name step fixity, _, r, hr => keeps_update name step fixity hr
  | .binary left op right, he, r, hr => by
    rw [Expr.eval]
    refine ends_bind (keeps_eval henv left he.2.1 r hr) fun v r₁ ⟨hv, h₁⟩ => ?_
    split
    · exact ends_pure ⟨hv, h₁⟩
    · refine ends_bind (keeps_eval henv right he.2.2 r₁ h₁) fun w r₂ ⟨hw, h₂⟩ => ?_
      exact ends_ofResult (fun u hu => ⟨Value.rawsAre_binary hv hw hu, h₂⟩) fun _ _ => trivial
  | .assign name value, he, r, hr => by
    rw [Expr.eval]
    refine ends_bind (keeps_eval henv value he.2 r hr) fun v r₁ ⟨hv, h₁⟩ => ?_
    exact ends_bind (keeps_assign name hv h₁) fun _ r₂ h₂ => ends_pure ⟨hv, h₂⟩
  | .conditional test whenTrue whenFalse, he, r, hr => by
    rw [Expr.eval]
    refine ends_bind (keeps_eval henv test he.2.1 r hr) fun v r₁ ⟨_, h₁⟩ => ?_
    split
    · exact keeps_eval henv whenTrue he.2.2.1 r₁ h₁
    · exact keeps_eval henv whenFalse he.2.2.2 r₁ h₁

theorem keeps_evalAll (henv : env.Sourced sources) : ∀ (es : List Expr), Expr.AllEvery Expr.BringsNone es →
    ∀ r : Run, r.Sourced sources → Ends (fun _ => True)
      (fun vs r' => (∀ v ∈ vs, v.RawsAre (Assembled sources)) ∧ r'.Sourced sources) (Expr.evalAll env es) r
  | [], _, r, hr => ends_pure ⟨nofun, hr⟩
  | e :: es, he, r, hr => by
    rw [Expr.evalAll]
    refine ends_bind (keeps_eval henv e he.1 r hr) fun v r₁ ⟨hv, h₁⟩ => ?_
    refine ends_bind (keeps_evalAll henv es he.2 r₁ h₁) fun vs r₂ ⟨hvs, h₂⟩ => ?_
    exact ends_pure ⟨List.forall_mem_cons.2 ⟨hv, hvs⟩, h₂⟩

end

theorem keeps_evalOption (henv : env.Sourced sources) {e : Option Expr}
    (he : ∀ x ∈ e.toList, x.Every Expr.BringsNone) (h : r.Sourced sources) :
    Keeps sources (Expr.evalOption env e) r := by
  cases e with
  | none => exact ends_pure ⟨Value.rawsAre_null, h⟩
  | some e => exact keeps_eval henv e (he e (by simp)) r h

/-! ## Operations -/

/-- a step writes only assembled markup -/
abbrev Execution.Writes (sources : List String) (m : Execution Unit) (r : Run) : Prop :=
  Ends (fun _ => True) (fun _ r' => r'.Sourced sources) m r

theorem writes_inScope {m : Execution Unit} (hm : ∀ r : Run, r.Sourced sources → Writes sources m r)
    (h : r.Sourced sources) : Writes sources (inScope m) r :=
  ends_inScope ((hm _ h.enter).mono fun _ _ h => h.leave)

theorem writes_declare {m : Execution Value} {name : String} (hm : Keeps sources m r) :
    Writes sources (m >>= fun v => changeScopes (·.declare name v)) r :=
  ends_bind hm fun _ _ ⟨hv, h⟩ => ends_modify (h.declare name hv)

mutual

/-- **An operation writes only assembled markup.** -/
theorem writes_exec (henv : env.Sourced sources) : ∀ (op : Op), (∀ o ∈ op.parts, o.Sourced sources) → ∀ r : Run,
    r.Sourced sources → Writes sources (op.exec env) r
  | .text s, ho, r, hr => by
    rw [Op.exec]
    exact ends_modify (hr.write (assembled_markup ((ho _ (Op.self_mem_parts _)).1 s (by simp [Op.markup]))))
  | .emit value, ho, r, hr => by
    rw [Op.exec]
    refine ends_bind (keeps_eval henv value ((ho _ (Op.self_mem_parts _)).2 value (by simp [Op.exprs])) r hr) ?_
    exact fun v r₁ ⟨hv, h₁⟩ => ends_modify (h₁.write (assembled_shown hv))
  | .beginAttribute opening, ho, r, hr => by
    rw [Op.exec]
    refine ends_modify ⟨hr.scopes, hr.html, ?_⟩
    intro a hm
    cases hm
    exact ⟨assembled_markup ((ho _ (Op.self_mem_parts _)).1 opening (by simp [Op.markup])), nofun⟩
  | .attributePart (.text s), ho, r, hr => by
    rw [Op.exec]
    exact ends_modify (hr.addPart (assembled_markup ((ho _ (Op.self_mem_parts _)).1 s (by simp [Op.markup]))))
  | .attributePart (.value e), ho, r, hr => by
    rw [Op.exec]
    refine ends_bind (P := fun s r' => Assembled sources s ∧ r'.Sourced sources) ?_
      fun s r₁ ⟨hs, h₁⟩ => ends_modify (h₁.addPart hs)
    refine ends_bind (keeps_eval henv e ((ho _ (Op.self_mem_parts _)).2 e (by simp [Op.exprs])) r hr) ?_
    refine fun v r₁ ⟨hv, h₁⟩ => ends_pure ⟨?_, h₁⟩
    split
    · exact assembled_shown hv
    · exact assembled_empty
  | .endAttribute closing, ho, r, hr => by
    rw [Op.exec]
    exact ends_modify
      (hr.closeAttribute (assembled_markup ((ho _ (Op.self_mem_parts _)).1 closing (by simp [Op.markup]))))
  | .declare name init, ho, r, hr => by
    rw [Op.exec]
    exact writes_declare (keeps_evalOption henv (ho _ (Op.self_mem_parts _)).2 hr)
  | .eval value, ho, r, hr => by
    rw [Op.exec]
    refine ends_bind (keeps_eval henv value ((ho _ (Op.self_mem_parts _)).2 value (by simp [Op.exprs])) r hr) ?_
    exact fun _ _ h => ends_pure h.2
  | .branch test whenTrue whenFalse, ho, r, hr => by
    have hs := (ho _ (Op.self_mem_parts _)).2 test (by simp [Op.exprs])
    have ht : ∀ o ∈ Op.allParts whenTrue, o.Sourced sources := fun o h => ho o (by simp [Op.parts.eq_def, h])
    have hf : ∀ o ∈ Op.allParts whenFalse, o.Sourced sources := fun o h => ho o (by simp [Op.parts.eq_def, h])
    rw [Op.exec]
    refine ends_bind (P := fun _ r' => r'.Sourced sources)
      (ends_bind (keeps_eval henv test hs r hr) fun _ _ h => ends_pure h.2) fun b r₁ h₁ => ?_
    cases b with
    | true => exact writes_inScope (writes_execAll henv whenTrue ht) h₁
    | false => exact writes_inScope (writes_execAll henv whenFalse hf) h₁
  | .loop counter init condition iteration body, ho, r, hr => by
    have hs := (ho _ (Op.self_mem_parts _)).2
    have hb : ∀ o ∈ Op.allParts body, o.Sourced sources := fun o h => ho o (by simp [Op.parts.eq_def, h])
    rw [Op.exec]
    refine writes_inScope (fun r₁ h₁ => ?_) hr
    refine ends_bind (keeps_evalOption henv (fun x hx => hs x (by simp [Op.exprs, hx])) h₁) fun v r₂ ⟨hv, h₂⟩ => ?_
    refine ends_bind (P := fun _ r' => r'.Sourced sources) (ends_modify (h₂.declare counter hv)) fun _ r₃ h₃ => ?_
    refine ends_repeatWhile trivial (fun r h => ?_) (fun r h => ?_) env.steps r₃ h₃
    · refine ends_bind (keeps_eval henv condition (hs condition (by simp [Op.exprs])) r h) ?_
      exact fun _ _ h => ends_pure h.2
    · refine ends_bind (writes_inScope (writes_execAll henv body hb) h) fun _ r₄ h₄ => ?_
      refine ends_bind (keeps_eval henv iteration (hs iteration (by simp [Op.exprs])) r₄ h₄) ?_
      exact fun _ _ h => ends_pure h.2
  | .each item collection body, ho, r, hr => by
    have hs := (ho _ (Op.self_mem_parts _)).2 collection (by simp [Op.exprs])
    have hb : ∀ o ∈ Op.allParts body, o.Sourced sources := fun o h => ho o (by simp [Op.parts.eq_def, h])
    rw [Op.exec]
    refine ends_bind (keeps_eval henv collection hs r hr) fun v r₁ ⟨hv, h₁⟩ => ?_
    refine ends_bind (P := fun items r' => (∀ w ∈ items, w.RawsAre (Assembled sources)) ∧ r'.Sourced sources)
      (ends_ofResult (fun items hi => ⟨Value.rawsAre_of_mem_iterate hv hi, h₁⟩) fun _ _ => trivial) ?_
    intro items r₂ hq
    obtain ⟨hi, h₂⟩ := hq
    refine ends_forM items (fun w hw r h => writes_inScope (fun r h => ?_) h) r₂ h₂
    exact ends_bind (P := fun _ r' => r'.Sourced sources) (ends_modify (h.declare item (hi w hw)))
      fun _ r₃ h₃ => writes_execAll henv body hb r₃ h₃

theorem writes_execAll (henv : env.Sourced sources) : ∀ (ops : List Op), (∀ o ∈ Op.allParts ops, o.Sourced sources) →
    ∀ r : Run, r.Sourced sources → Writes sources (Op.execAll env ops) r
  | [], _, r, hr => ends_pure hr
  | op :: ops, ho, r, hr => by
    rw [Op.execAll]
    refine ends_bind (writes_exec henv op (fun o h => ho o (by simp [Op.allParts, h])) r hr) fun _ r₁ h₁ => ?_
    exact writes_execAll henv ops (fun o h => ho o (by simp [Op.allParts, h])) r₁ h₁

end

/-- **A program writes only assembled markup**, whatever variables without other markup it starts with. -/
theorem assembled_run (henv : env.Sourced sources) {program : Program}
    (ho : ∀ o ∈ Op.allParts program, o.Sourced sources) {initial : Table Value}
    (hi : ∀ p ∈ initial, p.2.RawsAre (Assembled sources)) {html : String}
    (h : program.run env initial = .ok html) : Assembled sources html := by
  have hs : Run.Sourced sources { Run.start with scopes := [initial] } :=
    ⟨fun t ht => by rw [List.mem_singleton.1 ht]; exact hi, assembled_empty, nofun⟩
  have hw := writes_execAll henv program ho _ hs
  unfold Program.run at h
  cases hm : (Op.execAll env program).run { Run.start with scopes := [initial] } with
  | error e => rw [hm] at h; cases h
  | ok p =>
    rw [hm] at h
    cases h
    exact (ends_ok hw hm).html

end TemplateView
