/-
Plain markup. `plainSegment` is the grammar of segments with less: an `@` opens only an inline expression, and none stands
in the value of an attribute. Where it reads a source, the whole grammar reads the same (`parse_of_plain`); and where the
whole grammar reads a source without an `@`, so does it (`plain_of_parse`). The tokens of a plain source are all in the
strands of its template (`plain_written`).
-/
import TemplateView.Proofs.Grammar.Spelled

namespace TemplateView

namespace Grammar

open TemplateView.Parser

/-- an inline expression, and nothing else that an `@` may open -/
def inlineOnly : Parser Segment := do
  let mark ← peek .skipped
  match ← embedded fun _ => stalled with
  | .inline i => return .inline i
  | _ => fail (.unknownDirective mark)

/-- a segment of plain markup, in terms of those inside it -/
def plainOver (segment : Unit → Parser Segment) : Unit → Parser Segment :=
  fun _ => markupSegment inlineOnly stalled (segment ())

/-- a segment of plain markup -/
def plainSegment : Parser Segment :=
  recursive plainOver ()

end Grammar

/-- the source is plain markup: nothing but inline expressions is embedded in it, and none of them in an attribute -/
def PlainSource (source : String) : Prop :=
  ∃ t, Template.parseAs Grammar.plainSegment source = .ok t

namespace Parser

variable {α β σ : Type} {P : TokenStream → Prop}

/-- a property of streams that holds of every rest of a stream it holds of -/
def Lasting (P : TokenStream → Prop) : Prop := ∀ used s, P ⟨used ++ s.rest, s.finish⟩ → P s

/-- from streams as described, what the first parser makes of one the second makes of it too -/
def Within (P : TokenStream → Prop) (m m' : Parser α) : Prop :=
  ∀ s a t, P s → m s = .ok (a, t) → m' s = .ok (a, t) ∧ P t

theorem within_refl (hP : Lasting P) {m : Parser α} (hm : Shrinks m) : Within P m m := by
  intro s a t hs h
  obtain ⟨used, rfl, -⟩ := hm s a t h
  exact ⟨h, hP used t hs⟩

theorem within_bind {m m' : Parser α} {f f' : α → Parser β} (hm : Within P m m') (hf : ∀ a, Within P (f a) (f' a)) :
    Within P (m >>= f) (m' >>= f') := by
  intro s b t hs h
  obtain ⟨a, u, ha, hb⟩ := bind_ok_iff.1 h
  obtain ⟨ha', hu⟩ := hm s a u hs ha
  obtain ⟨hb', ht⟩ := hf a u b t hu hb
  exact ⟨bind_ok_iff.2 ⟨a, u, ha', hb'⟩, ht⟩

theorem within_stalled {m : Parser α} : Within P stalled m := by
  intro s a t _ h
  cases h

theorem within_fail {e : ParseError} {m : Parser α} : Within P (fail e) m := by
  intro s a t _ h
  cases h

theorem within_loop {step step' : σ → Parser (σ ⊕ α)} (h : ∀ a, Within P (step a) (step' a)) (n : Nat) (a : σ) :
    Within P (loop step n a) (loop step' n a) := by
  induction n generalizing a with
  | zero => exact within_stalled
  | succ n ih =>
    refine within_bind (h a) ?_
    intro x
    cases x with
    | inl b => exact ih b
    | inr r =>
      intro s _ t hs hm
      cases hm
      exact ⟨rfl, hs⟩

theorem within_iterate {step step' : σ → Parser (σ ⊕ α)} (h : ∀ a, Within P (step a) (step' a)) (a : σ) :
    Within P (iterate a step) (iterate a step') :=
  fun s r t hs hm => within_loop h (s.remaining + 1) a s r t hs hm

theorem shrinks_of {m : Parser α} {Q : List Token → α → Prop} (h : ∀ {s}, Takes m s Q) : Shrinks m :=
  fun _ => h.mono fun _ _ _ => trivial

end Parser

namespace Grammar

open TemplateView.Parser

variable {P : TokenStream → Prop} {inValue inValue' here here' inner inner' : Parser Segment}

theorem within_peek (hP : Lasting P) {β : Type} {b : Blanks} {f f' : Token → Parser β} (hf : ∀ t, Within P (f t) (f' t)) :
    Within P (peek b >>= f) (peek b >>= f') :=
  within_bind (within_refl hP (shrinks_peek b)) hf

theorem within_valueRound (hP : Lasting P) (hv : Within P inValue inValue') (quote : Token) (parts : List ValuePart)
    (text : String) : Within P (valueRound inValue quote parts text) (valueRound inValue' quote parts text) := by
  refine within_peek hP fun t => ?_
  refine within_bind (within_refl hP (shrinks_of (takes_startsInline t text))) fun inline => ?_
  split
  · exact within_refl hP (shrinks_pure _)
  split
  · exact within_fail
  split
  · refine within_bind hv fun r => ?_
    cases r
    all_goals first | exact within_refl hP (shrinks_pure _) | exact within_fail
  · exact within_refl hP (shrinks_bind (advances_consume _).shrinks fun _ => shrinks_pure _)

theorem within_valueParts (hP : Lasting P) (hv : Within P inValue inValue') (quote : Token) :
    Within P (valueParts inValue quote) (valueParts inValue' quote) := by
  unfold valueParts
  refine within_iterate ?_ _
  intro p
  exact within_valueRound hP hv quote p.1 p.2

theorem within_oneAttribute (hP : Lasting P) (hv : Within P inValue inValue') :
    Within P (oneAttribute inValue) (oneAttribute inValue') := by
  refine within_bind (within_refl hP (advances_expectCategory _ _).shrinks) fun leading => ?_
  refine within_bind (within_refl hP (shrinks_of takes_tagName)) fun name => ?_
  refine within_peek hP fun next => ?_
  split
  · exact within_refl hP (shrinks_pure _)
  refine within_bind (within_refl hP (shrinks_of (takes_blank _))) fun before => ?_
  refine within_bind (within_refl hP (advances_expect _ _).shrinks) fun sign => ?_
  refine within_bind (within_refl hP (shrinks_of (takes_blank _))) fun behind => ?_
  refine within_bind (within_refl hP (advances_expected .kept (.oneOf _)).shrinks) fun quote => ?_
  refine within_bind (within_valueParts hP hv quote) fun parts => ?_
  exact within_refl hP (shrinks_bind (advances_expect _ _).shrinks fun _ => shrinks_pure _)

theorem within_attributes (hP : Lasting P) (hv : Within P inValue inValue') (tag : String) (start : Position) :
    Within P (attributes inValue tag start) (attributes inValue' tag start) := by
  refine within_iterate (fun as => within_peek hP fun next => ?_) _
  split
  · exact within_refl hP (shrinks_pure _)
  split
  · exact within_fail
  · exact within_bind (within_oneAttribute hP hv) fun a => within_refl hP (shrinks_pure _)

theorem within_children (hP : Lasting P) (hi : Within P inner inner') (tag : String) (start : Position) :
    Within P (children inner tag start) (children inner' tag start) := by
  refine within_iterate (fun rs => within_peek hP fun mark => ?_) _
  refine within_bind (within_refl hP (shrinks_peekNext _)) fun after => ?_
  refine within_bind (within_refl hP shrinks_atEnd) fun ended => ?_
  split
  · exact within_fail
  split
  · exact within_refl hP (shrinks_pure _)
  · exact within_bind hi fun r => within_refl hP (shrinks_pure _)

theorem within_markup (hP : Lasting P) (hv : Within P inValue inValue') (hi : Within P inner inner') :
    Within P (markup inValue inner) (markup inValue' inner') := by
  refine within_bind (within_refl hP (shrinks_of (takes_blank _))) fun leading => ?_
  refine within_bind (within_refl hP (advances_expect _ _).shrinks) fun mark => ?_
  refine within_peek hP fun next => ?_
  split
  · refine within_bind (within_refl hP (advances_consume _).shrinks) fun _ => within_peek hP fun next => ?_
    split
    · exact within_refl hP (shrinks_bind (shrinks_of (takes_htmlComment _)) fun _ => shrinks_pure _)
    · exact within_refl hP (shrinks_bind (shrinks_of (takes_docType _)) fun _ => shrinks_pure _)
  refine within_bind (within_refl hP (shrinks_of takes_tagName)) fun name => ?_
  refine within_bind (within_attributes hP hv name mark.position) fun as => ?_
  refine within_bind (within_refl hP (shrinks_of (takes_blank _))) fun beforeEnd => within_peek hP fun next => ?_
  split
  · refine within_refl hP ?_
    exact shrinks_bind (advances_expect _ _).shrinks fun _ => shrinks_bind (advances_expect _ _).shrinks fun _ => shrinks_pure _
  refine within_bind (within_refl hP (advances_expect _ _).shrinks) fun _ => ?_
  split
  · exact within_refl hP (shrinks_pure _)
  refine within_bind (within_children hP hi name mark.position) fun rs => ?_
  exact within_refl hP (shrinks_bind (shrinks_of (takes_endTag _ _)) fun _ => shrinks_pure _)

/-- a segment in markup is the same where what it is made of is -/
theorem within_markupSegment (hP : Lasting P) (hh : Within P here here') (hv : Within P inValue inValue')
    (hi : Within P inner inner') : Within P (markupSegment here inValue inner) (markupSegment here' inValue' inner') := by
  refine within_peek hP fun next => ?_
  split
  · refine within_peek hP fun mark => ?_
    refine within_bind (within_refl hP (shrinks_peekNth 2)) fun after => ?_
    split
    · exact within_refl hP (shrinks_bind (shrinks_of (takes_blank _)) fun _ => shrinks_pure _)
    · exact hh
  refine within_bind (within_refl hP (shrinks_of takes_startsMarkup)) fun opens => ?_
  split
  · exact within_markup hP hv hi
  · exact within_refl hP (shrinks_bind (shrinks_of takes_textRun) fun _ => shrinks_pure _)

theorem within_document (hP : Lasting P) (hi : Within P inner inner') : Within P (document inner) (document inner') := by
  refine within_iterate (fun rs => within_bind (within_refl hP shrinks_atEnd) fun ended => ?_) _
  split
  · exact within_refl hP (shrinks_pure _)
  · exact within_bind hi fun r => within_refl hP (shrinks_pure _)

/-! ## What an `@` opens -/

/-- an inline expression is read whatever the code inside other constructs would be -/
theorem embedded_inline {code other : Place → Parser Segment} {s t : TokenStream} {i : InlineExpression}
    (h : embedded code s = .ok (.inline i, t)) : embedded other s = .ok (.inline i, t) := by
  obtain ⟨leading, s₁, hlead, h⟩ := bind_ok_iff.1 h
  obtain ⟨mark, s₂, hmark, h⟩ := bind_ok_iff.1 h
  obtain ⟨hl, m, -, -, hx, hc⟩ := construct_inline h
  rw [embedded, bind_ok hlead, bind_ok hmark, hc other leading mark s₂ (.refl _), bind_ok hx, ← hl]
  rfl

theorem inlineOnly_eq_ok {s t : TokenStream} {r : Segment} (h : inlineOnly s = .ok (r, t)) :
    ∃ i, r = .inline i ∧ ∀ code, embedded code s = .ok (r, t) := by
  rw [inlineOnly, bind_ok (peek_run .skipped s)] at h
  obtain ⟨x, u, hx, h⟩ := bind_ok_iff.1 h
  cases x
  case inline i =>
    cases h
    exact ⟨i, rfl, fun code => embedded_inline hx⟩
  all_goals cases h

/-- what an `@` opens has an `@` -/
theorem embedded_marked {code : Place → Parser Segment} {s t : TokenStream} {r : Segment}
    (h : embedded code s = .ok (r, t)) : ∃ c ∈ s.rest, c.isDelimiter = true := by
  obtain ⟨leading, s₁, hlead, h⟩ := bind_ok_iff.1 h
  obtain ⟨mark, s₂, hmark, -⟩ := bind_ok_iff.1 h
  obtain ⟨used, rfl, -⟩ := takes_blank s leading s₁ hlead
  obtain ⟨hs, hd⟩ := consumeExpected_eq_ok.1 (taking_eq_ok.1 hmark)
  have hs : s₁ = ⟨mark :: s₂.rest, s₂.finish⟩ := hs
  subst hs
  exact ⟨mark, by simp, by simpa [Expected.matches, Token.isDelimiter] using hd⟩

/-! ## Plain markup and all markup -/

theorem within_plain (n : Nat) : Within (fun _ => True) (nested plainOver n ()) (nested segmentOver n .markup) := by
  have hP : Lasting fun _ => True := fun _ _ _ => trivial
  induction n with
  | zero => exact within_stalled
  | succ n ih =>
    refine within_markupSegment hP ?_ within_stalled ih
    intro s r t _ h
    obtain ⟨i, -, hi⟩ := inlineOnly_eq_ok h
    exact ⟨hi _, trivial⟩

/-- no `@` is left -/
def Unmarked (s : TokenStream) : Prop := ∀ c ∈ s.rest, c.isDelimiter = false

theorem within_unmarked (n : Nat) : Within Unmarked (nested segmentOver n .markup) (nested plainOver n ()) := by
  have hP : Lasting Unmarked := fun used s h c hc => h c (by simp [hc])
  have hnone : ∀ (code : Place → Parser Segment) (m : Parser Segment), Within Unmarked (embedded code) m := by
    intro code m s r t hs h
    obtain ⟨c, hc, hd⟩ := embedded_marked h
    rw [hs c hc] at hd
    cases hd
  induction n with
  | zero => exact within_stalled
  | succ n ih => exact within_markupSegment hP (hnone _ _) (hnone _ _) ih

theorem parseAs_eq_ok {m : Parser Segment} {source : String} {t : Template} :
    Template.parseAs m source = .ok t ↔ ∃ u, document m (.ofSource source) = .ok (t.segments, u) := by
  unfold Template.parseAs
  cases h : document m (.ofSource source) with
  | error e => simp
  | ok r =>
    obtain ⟨rs, u⟩ := r
    constructor
    · intro hm
      cases hm
      exact ⟨u, rfl⟩
    · intro hx
      obtain ⟨_, ⟨⟩⟩ := hx
      rfl

/-- a property of streams carries over from one grammar to another where it does for every segment -/
theorem parseAs_within {m m' : Parser Segment} {P : TokenStream → Prop} (hP : Lasting P) (hm : Within P m m')
    {source : String} {t : Template} (hs : P (.ofSource source)) (h : Template.parseAs m source = .ok t) :
    Template.parseAs m' source = .ok t := by
  obtain ⟨u, hu⟩ := parseAs_eq_ok.1 h
  exact parseAs_eq_ok.2 ⟨u, (within_document hP hm _ _ _ hs hu).1⟩

/-- **Plain markup is markup.** What the plain grammar reads, the whole grammar reads the same. -/
theorem parse_of_plain {source : String} {t : Template} (h : Template.parseAs plainSegment source = .ok t) :
    Template.parse source = .ok t :=
  parseAs_within (fun _ _ _ => trivial) (fun s r u hs hm => within_plain (s.remaining + 1) s r u hs hm)
    (P := fun _ => True) trivial h

/-- **Markup without an `@` is plain.** -/
theorem plain_of_parse {source : String} {t : Template} (hn : '@' ∉ source.toList) (h : Template.parse source = .ok t) :
    Template.parseAs plainSegment source = .ok t := by
  refine parseAs_within (P := Unmarked) ?_ ?_ ?_ h
  · exact fun used s hs c hc => hs c (by simp [hc])
  · exact fun s r u hs hm => within_unmarked (s.remaining + 1) s r u hs hm
  · intro c hc
    by_contra hd
    have htext : c.text = "@" := (proper_tokensFrom .start source.toList c hc).mark (by simpa using hd)
    obtain ⟨before, after, hb⟩ := List.append_of_mem hc
    have hsource : source = textOf before ++ (c.text ++ textOf after) := by
      have h := textOf_tokensFrom .start source.toList
      rw [show tokensFrom .start source.toList = before ++ c :: after from hb, String.ofList_toList] at h
      rw [← h, textOf_append, textOf_cons]
    exact hn (by rw [hsource, htext]; simp)

/-! ## The strands of plain markup -/

theorem takes_inlineOnly {s : TokenStream} : Takes inlineOnly s Written := by
  intro r t h
  obtain ⟨i, rfl, hi⟩ := inlineOnly_eq_ok h
  obtain ⟨lead, code, hs, hl, hc⟩ := embedded_alone (hi fun _ => stalled)
  exact ⟨lead ++ code, hs, _, rfl, by simpa using Spells.text hl (.code hc .nil)⟩

theorem takes_plainSegment (s : TokenStream) : Takes plainSegment s Written :=
  takes_recursive (Q := fun _ => Written) (fun _ hself _ _ => takes_markupSegment (fun _ => takes_inlineOnly) (hself ())) () s

theorem takes_document {m : Parser Segment} (hm : ∀ s, Takes m s Written) (s : TokenStream) :
    Takes (document m) s WrittenAll := by
  refine takes_iterate (I := WrittenAll) ⟨[], rfl, .nil⟩ ?_
  intro used rs t hrs
  refine takes_atEnd ?_
  split
  · exact takes_pure (by simpa using hrs)
  refine takes_bind (hm t) ?_
  intro more r t _ hr
  exact takes_pure (by simpa using hrs.append hr)

theorem loop_documentRound_end (m : Parser Segment) (n : Nat) {rs rs' : List Segment} {s t : TokenStream}
    (h : loop (documentRound m) n rs s = .ok (rs', t)) : t.atEnd .kept = true := by
  induction n generalizing rs s with
  | zero => cases h
  | succ n ih =>
    obtain ⟨x, u, hx, h⟩ := bind_ok_iff.1 h
    rw [documentRound, bind_ok (atEnd_run s)] at hx
    by_cases he : s.atEnd .kept = true
    · rw [if_pos he] at hx
      cases hx
      cases h
      exact he
    · rw [if_neg he] at hx
      obtain ⟨r, v, -, hx⟩ := bind_ok_iff.1 hx
      cases hx
      exact ih h

/-- **Plain markup is its strands.** All tokens of a plain source are in its strands. -/
theorem plain_written {source : String} {t : Template} (h : Template.parseAs plainSegment source = .ok t) :
    WrittenAll (tokensFrom .start source.toList) t.segments := by
  obtain ⟨u, hu⟩ := parseAs_eq_ok.1 h
  have hend := loop_documentRound_end _ _ hu
  -- the last round found the end of the source, and no token of a source is taken for it
  obtain ⟨used, hs, hw⟩ := takes_document takes_plainSegment _ _ _ hu
  have hrest : tokensFrom .start source.toList = used ++ u.rest := congrArg TokenStream.rest hs
  have hu : u.rest = [] := by
    cases hr : u.rest with
    | nil => rfl
    | cons c cs =>
      have hc : c.isEnd = false :=
        (proper_tokensFrom .start source.toList c (by rw [hrest, hr]; simp)).present
      have hp : u.atEnd .kept = c.isEnd := by
        show (u.rest.getD 0 _).isEnd = c.isEnd
        rw [hr]
        rfl
      rw [hp, hc] at hend
      cases hend
  rw [hrest, hu, List.append_nil]
  exact hw

end Grammar

end TemplateView
