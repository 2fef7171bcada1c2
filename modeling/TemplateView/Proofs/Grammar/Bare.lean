/-
Text that opens nothing. Where neither an `@` nor a `<` stands, markup is read as runs of text: each takes one token,
whatever it is, and goes on up to the next slash, quote, `=` or `>`, or to what follows the text (`segment_bare`). So such
a text never fails, as a document (`document_bare`), in front of an end tag (`children_bare`) or in front of code, unless
an address seems to stand there (`texts_before`), and none of it is dropped.
-/
import TemplateView.Proofs.Grammar.Angles
import TemplateView.Proofs.Grammar.Ending

namespace TemplateView

/-- a token of text that opens nothing -/
structure Token.Bare (t : Token) : Prop where
  present : t.isEnd = false
  unmarked : t.isDelimiter = false
  closed : t.is "<" = false

/-- the tokens of a text without `@` and `<` are bare -/
theorem bare_tokensFrom {cs : List Char} (h : '@' ∉ cs ∧ '<' ∉ cs) (p : Position) : ∀ t ∈ tokensFrom p cs, t.Bare := by
  intro t ht
  have hproper := proper_tokensFrom p cs t ht
  -- the characters of a token are those of the text
  have htext : ∀ c ∈ t.text.toList, c ∈ cs := by
    obtain ⟨before, behind, hsplit⟩ := List.append_of_mem ht
    have hcs := textOf_tokensFrom p cs
    rw [hsplit, textOf_append, textOf_cons] at hcs
    have hcs := congrArg String.toList hcs
    rw [String.toList_append, String.toList_append, String.toList_ofList] at hcs
    intro c hc
    rw [← hcs]
    simp [hc]
  refine ⟨hproper.present, ?_, ?_⟩
  · by_contra hd
    have hmark := hproper.mark (by simpa using hd)
    exact h.1 (htext '@' (by rw [hmark]; decide))
  · by_contra ho
    rw [Bool.not_eq_false, Token.is, Bool.and_eq_true, beq_iff_eq] at ho
    exact h.2 (htext '<' (by rw [ho.2]; decide))

namespace Grammar

open TemplateView.Parser

/-! ## How parsers run -/

theorem bind_error {α β : Type} {m : Parser α} {g : α → Parser β} {s : TokenStream} {e : SourceError}
    (h : m s = .error e) : (m >>= g) s = .error e := by
  rw [bind_run, h]
  rfl

theorem expect_run {next : Token} {mark : String} (h : next.is mark = true) (rest : List Token) (f : Position) :
    expect .kept mark ⟨next :: rest, f⟩ = .ok (next, ⟨rest, f⟩) :=
  taking_eq_ok.2 (consumeExpected_eq_ok.2 ⟨rfl, h⟩)

/-- a `<` opens markup where a name or a `!` follows -/
theorem segment_open {next : Token} (h : (next.isAlphanumeric || next.is "!") = true) (p : Position) (rest : List Token)
    (f : Position) :
    segment .markup ⟨⟨p, "<", .operator⟩ :: next :: rest, f⟩ =
      markup (embedded segment) (segment .markup) ⟨⟨p, "<", .operator⟩ :: next :: rest, f⟩ := by
  have hopens : startsMarkup ⟨⟨p, "<", .operator⟩ :: next :: rest, f⟩ =
      .ok (next.isAlphanumeric || next.is "!", ⟨⟨p, "<", .operator⟩ :: next :: rest, f⟩) := rfl
  have hmark : ((TokenStream.mk (⟨p, "<", .operator⟩ :: next :: rest) f).peek .skipped).isDelimiter = false := rfl
  refine (congrFun (segment_eq .markup) _).trans ?_
  rw [segmentOver, markupSegment, bind_ok (peek_run .skipped _), hmark, if_neg Bool.false_ne_true, bind_ok hopens,
    if_pos h]

/-- tokens that open an end tag -/
abbrev closing (p q : Position) (rest : List Token) : List Token :=
  ⟨p, "<", .operator⟩ :: ⟨q, "/", .operator⟩ :: rest

/-- the last character is a letter or a digit -/
def endsAlphanumeric (text : String) : Bool := (text.toList.getLast?.map Text.isAlphanumeric).getD false

theorem endsAlphanumeric_append {first text : String} (h : endsAlphanumeric (first ++ text) = false) :
    endsAlphanumeric text = false := by
  unfold endsAlphanumeric at *
  rw [String.toList_append, List.getLast?_append] at h
  cases hl : text.toList.getLast? with
  | none => rfl
  | some c =>
    rw [hl] at h
    exact h

/-- what may follow a text: nothing, an end tag, or code where the text does not make an address of that -/
inductive Follows (text : String) : List Token → Prop
  | nothing : Follows text []
  | endTag (p q : Position) (rest : List Token) : Follows text (closing p q rest)
  | code (p : Position) {next : Token} (rest : List Token) (hn : opensCode next = true)
      (ht : endsAlphanumeric text = false) : Follows text (⟨p, "@", .delimiter⟩ :: next :: rest)

theorem Follows.suffix {first text : String} {behind : List Token} (h : Follows (first ++ text) behind) :
    Follows text behind := by
  cases h with
  | nothing => exact .nothing
  | endTag p q rest => exact .endTag p q rest
  | code p rest hn ht => exact .code p rest hn (endsAlphanumeric_append ht)

variable {ts behind : List Token} {t : Token} {f : Position}

/-! ## Runs of text -/

theorem iterate_textRound (text : String) :
    iterate text textRound = textRound text >>= Sum.elim (iterate · textRound) pure :=
  iterate_eq (fun _ text => settled_textRound text) text

theorem textRound_end {text : String} (h : Follows text behind) :
    textRound text ⟨behind, f⟩ = .ok (.inr text, ⟨behind, f⟩) := by
  cases h with
  | nothing => rfl
  | endTag p q rest => rfl
  | @code p next rest hn ht =>
    have haddress : isAddressAt text ⟨⟨p, "@", .delimiter⟩ :: next :: rest, f⟩ =
        .ok (endsAlphanumeric text && next.isAlphanumeric, ⟨⟨p, "@", .delimiter⟩ :: next :: rest, f⟩) := rfl
    rw [textRound, bind_ok (peek_run .kept _), bind_ok haddress, ht, Bool.false_and]
    rfl

theorem textRound_bare (h : t.Bare) (text : String) :
    textRound text ⟨t :: ts, f⟩ = .ok (if t.isOneOf textStops then .inr text else .inl (text ++ t.text),
      ⟨if t.isOneOf textStops then t :: ts else ts, f⟩) := by
  have hpeek : (TokenStream.mk (t :: ts) f).peek .kept = t := rfl
  have haddress : ∃ b, isAddressAt text ⟨t :: ts, f⟩ = .ok (b, ⟨t :: ts, f⟩) := ⟨_, rfl⟩
  obtain ⟨b, hb⟩ := haddress
  rw [textRound, bind_ok (peek_run .kept _), hpeek, bind_ok hb, h.present, h.unmarked]
  by_cases hs : t.isOneOf textStops = true
  · simp only [hs, if_true]
    rfl
  · simp only [hs]
    rfl

theorem textRun_bare (hts : ∀ u ∈ ts, u.Bare) (text : String) (hb : Follows (text ++ textOf ts) behind) :
    ∃ us vs, ts = us ++ vs ∧ iterate text textRound ⟨ts ++ behind, f⟩ = .ok (text ++ textOf us, ⟨vs ++ behind, f⟩) := by
  induction ts generalizing text with
  | nil =>
    refine ⟨[], [], rfl, ?_⟩
    rw [textOf_nil, String.append_empty] at hb
    rw [iterate_textRound, List.nil_append, bind_ok (textRound_end hb), textOf_nil, String.append_empty]
    rfl
  | cons t ts ih =>
    obtain ⟨ht, hts⟩ := List.forall_mem_cons.1 hts
    rw [iterate_textRound, List.cons_append, bind_ok (textRound_bare ht text)]
    by_cases hs : t.isOneOf textStops = true
    · refine ⟨[], t :: ts, rfl, ?_⟩
      simp only [hs, if_true, textOf_nil, String.append_empty]
      rfl
    · rw [textOf_cons, ← String.append_assoc] at hb
      obtain ⟨us, vs, rfl, hrun⟩ := ih hts (text ++ t.text) hb
      refine ⟨t :: us, vs, rfl, ?_⟩
      simp only [hs, textOf_cons, ← String.append_assoc]
      exact hrun

/-! ## Segments -/

/-- no token up to the end of the text opens a tag or a comment -/
theorem peekNth_bare {text : String} (hts : ∀ u ∈ ts, u.Bare) (hb : Follows text behind) {n : Nat} (hn : n ≤ ts.length)
    (ho : ((TokenStream.mk (ts ++ behind) f).peekNth n).is "<" = true) :
    ((TokenStream.mk (ts ++ behind) f).peekNth (n + 1)).isAlphanumeric = false ∧
      ((TokenStream.mk (ts ++ behind) f).peekNth (n + 1)).is "!" = false := by
  induction ts generalizing n with
  | nil =>
    obtain rfl := Nat.le_zero.1 hn
    cases hb with
    | nothing => cases ho
    | endTag p q rest => exact ⟨rfl, rfl⟩
    | code p rest => cases ho
  | cons t ts ih =>
    obtain ⟨ht, hts⟩ := List.forall_mem_cons.1 hts
    cases n with
    | zero => exact absurd (ht.closed.symm.trans ho) Bool.false_ne_true
    | succ n => exact ih hts (Nat.le_of_succ_le_succ hn) ho

theorem startsMarkup_bare {text : String} (ht : t.Bare) (hts : ∀ u ∈ ts, u.Bare) (hb : Follows text behind) :
    startsMarkup ⟨t :: ts ++ behind, f⟩ = .ok (false, ⟨t :: ts ++ behind, f⟩) := by
  have hall : ∀ u ∈ t :: ts, u.Bare := List.forall_mem_cons.2 ⟨ht, hts⟩
  have hoffset : (if t.isWhitespace then 1 else 0) ≤ (t :: ts).length := by
    rw [List.length_cons]
    split <;> omega
  have hrun : startsMarkup ⟨t :: ts ++ behind, f⟩ =
      .ok (((TokenStream.mk (t :: ts ++ behind) f).peekNth (if t.isWhitespace then 1 else 0)).is "<" &&
        (((TokenStream.mk (t :: ts ++ behind) f).peekNth ((if t.isWhitespace then 1 else 0) + 1)).isAlphanumeric ||
          ((TokenStream.mk (t :: ts ++ behind) f).peekNth ((if t.isWhitespace then 1 else 0) + 1)).is "!"),
        ⟨t :: ts ++ behind, f⟩) := rfl
  rw [hrun]
  by_cases ho : ((TokenStream.mk (t :: ts ++ behind) f).peekNth (if t.isWhitespace then 1 else 0)).is "<" = true
  · obtain ⟨hname, hbang⟩ := peekNth_bare hall hb hoffset ho
    rw [hname, hbang, Bool.or_self, Bool.and_false]
  · rw [Bool.not_eq_true] at ho
    rw [ho, Bool.false_and]

/-- an `@` is next only behind a text of whitespace, and it opens code there -/
theorem marked_bare {text : String} (ht : t.Bare) (hts : ∀ u ∈ ts, u.Bare) (hb : Follows text behind)
    (hm : ((TokenStream.mk (t :: ts ++ behind) f).peek .skipped).isDelimiter = true) :
    ts = [] ∧ t.isWhitespace = true ∧ opensCode ((TokenStream.mk (t :: ts ++ behind) f).peekNth 2) = true := by
  by_cases hw : t.isWhitespace = true
  · have hpass : (TokenStream.mk (t :: ts ++ behind) f).passBlank .skipped = ⟨ts ++ behind, f⟩ := if_pos hw
    rw [TokenStream.peek, hpass] at hm
    cases ts with
    | nil =>
      cases hb with
      | nothing => cases hm
      | endTag p q rest => cases hm
      | code p rest hn => exact ⟨rfl, hw, hn⟩
    | cons u ts => exact absurd ((hts u List.mem_cons_self).unmarked.symm.trans hm) Bool.false_ne_true
  · have hpass : (TokenStream.mk (t :: ts ++ behind) f).passBlank .skipped = ⟨t :: ts ++ behind, f⟩ := if_neg hw
    rw [TokenStream.peek, hpass] at hm
    exact absurd (ht.unmarked.symm.trans hm) Bool.false_ne_true

/-- **A run of text.** Text that opens nothing is a segment, up to where the text ends or before. -/
theorem segment_bare (ht : t.Bare) (hts : ∀ u ∈ ts, u.Bare) (hb : Follows (textOf (t :: ts)) behind) :
    ∃ us vs, ts = us ++ vs ∧
      segment .markup ⟨t :: ts ++ behind, f⟩ = .ok (.text (t.text ++ textOf us), ⟨vs ++ behind, f⟩) := by
  by_cases hm : ((TokenStream.mk (t :: ts ++ behind) f).peek .skipped).isDelimiter = true
  · obtain ⟨rfl, hw, hcode⟩ := marked_bare ht hts hb hm
    have hkept : ((TokenStream.mk ([t] ++ behind) f).peek .kept).isWhitespace = true := hw
    have hblank : blank ⟨[t] ++ behind, f⟩ = .ok (t.text, ⟨behind, f⟩) := by
      rw [blank, bind_ok (peek_run .kept _), hkept, if_pos rfl]
      rfl
    refine ⟨[], [], rfl, ?_⟩
    rw [segment_eq, segmentOver, markupSegment, bind_ok (peek_run .skipped _), hm, if_pos rfl, bind_ok (peek_run .kept _),
      bind_ok (peekNth_run 2 _), hkept, hcode, Bool.and_self, if_pos rfl, bind_ok hblank, textOf_nil, String.append_empty]
    rfl
  · obtain ⟨us, vs, hsplit, hrun⟩ := textRun_bare (f := f) hts t.text hb
    have htext : textRun ⟨t :: ts ++ behind, f⟩ = .ok (t.text ++ textOf us, ⟨vs ++ behind, f⟩) :=
      (bind_ok rfl).trans hrun
    refine ⟨us, vs, hsplit, ?_⟩
    rw [segment_eq, segmentOver, markupSegment, bind_ok (peek_run .skipped _), if_neg hm,
      bind_ok (startsMarkup_bare ht hts hb), if_neg Bool.false_ne_true, bind_ok htext]
    rfl

/-! ## Documents and the content of elements -/

/-- A loop over segments reads a text that opens nothing if each of its rounds reads a segment, unless what is left of the
text is as `P` says. It goes on there, in front of what follows the text or a little before. -/
theorem rounds_bare {round : List Segment → Parser (List Segment ⊕ List Segment)} {P : List Token → Prop}
    (hi : ∀ rs, iterate rs round = round rs >>= Sum.elim (iterate · round) pure) (hnil : P [])
    (hmore : ∀ rs t ts r s, t.Bare → (∀ u ∈ ts, u.Bare) → ¬ P (t :: ts) →
      segment .markup ⟨t :: ts ++ behind, f⟩ = .ok (r, s) → round rs ⟨t :: ts ++ behind, f⟩ = .ok (.inl (rs ++ [r]), s))
    (hts : ∀ u ∈ ts, u.Bare) (hb : Follows (textOf ts) behind) (rs : List Segment) :
    ∃ (texts : List String) (us vs : List Token), ts = us ++ vs ∧ P vs ∧ String.join texts = textOf us ∧
      iterate rs round ⟨ts ++ behind, f⟩ = iterate (rs ++ texts.map .text) round ⟨vs ++ behind, f⟩ := by
  induction hn : ts.length using Nat.strongRecOn generalizing ts rs with
  | ind n ih =>
    by_cases hl : P ts
    · exact ⟨[], [], ts, rfl, hl, rfl, by rw [List.map_nil, List.append_nil]⟩
    cases ts with
    | nil => exact absurd hnil hl
    | cons t ts =>
      obtain ⟨ht, hts⟩ := List.forall_mem_cons.1 hts
      obtain ⟨us, vs, rfl, hrun⟩ := segment_bare (f := f) ht hts hb
      -- the segment takes at least one token, and what it leaves is a text again
      have hlen : vs.length < n := by
        rw [← hn, List.length_cons, List.length_append]
        omega
      have hrest : Follows (textOf vs) behind := by
        rw [textOf_cons, textOf_append, ← String.append_assoc] at hb
        exact hb.suffix
      obtain ⟨texts, us', ws, rfl, hws, hjoin, hgoes⟩ := ih vs.length hlen
        (fun u hu => hts u (List.mem_append_right us hu)) hrest (rs ++ [.text (t.text ++ textOf us)]) rfl
      refine ⟨(t.text ++ textOf us) :: texts, t :: (us ++ us'), ws, by simp, hws, ?_, ?_⟩
      · rw [String.join_cons, hjoin, textOf_cons, textOf_append, String.append_assoc]
      · rw [List.map_cons, List.append_cons, hi, bind_ok (hmore rs t _ _ _ ht hts hl hrun)]
        exact hgoes

theorem iterate_documentRound (rs : List Segment) : iterate rs (documentRound (segment .markup)) =
    documentRound (segment .markup) rs >>= Sum.elim (iterate · (documentRound (segment .markup))) pure :=
  iterate_eq (fun _ rs => settled_documentRound rs) rs

theorem documentRound_run (ht : t.isEnd = false) {r : Segment} {s : TokenStream}
    (hr : segment .markup ⟨t :: ts, f⟩ = .ok (r, s)) (rs : List Segment) :
    documentRound (segment .markup) rs ⟨t :: ts, f⟩ = .ok (.inl (rs ++ [r]), s) := by
  have hend : (TokenStream.mk (t :: ts) f).atEnd .kept = false := ht
  rw [documentRound, bind_ok (atEnd_run _), hend, if_neg Bool.false_ne_true, bind_ok hr]
  rfl

/-- a document goes on behind its first segment -/
theorem document_segment (ht : t.isEnd = false) {r : Segment} {s : TokenStream}
    (hr : segment .markup ⟨t :: ts, f⟩ = .ok (r, s)) :
    document (segment .markup) ⟨t :: ts, f⟩ = iterate [r] (documentRound (segment .markup)) s := by
  rw [document, iterate_documentRound, bind_ok (documentRound_run ht hr [])]
  rfl

/-- and fails with it -/
theorem document_error (ht : t.isEnd = false) {e : SourceError} (hr : segment .markup ⟨t :: ts, f⟩ = .error e) :
    document (segment .markup) ⟨t :: ts, f⟩ = .error e := by
  have hend : (TokenStream.mk (t :: ts) f).atEnd .kept = false := ht
  rw [document, iterate_documentRound]
  refine bind_error ?_
  rw [documentRound, bind_ok (atEnd_run _), hend, if_neg Bool.false_ne_true]
  exact bind_error hr

/-- behind other segments, a text that opens nothing is read as texts, up to what follows it -/
theorem texts_before (hts : ∀ u ∈ ts, u.Bare) (hb : Follows (textOf ts) behind) (rs : List Segment) :
    ∃ texts : List String, String.join texts = textOf ts ∧
      iterate rs (documentRound (segment .markup)) ⟨ts ++ behind, f⟩ =
        iterate (rs ++ texts.map .text) (documentRound (segment .markup)) ⟨behind, f⟩ := by
  obtain ⟨texts, us, vs, rfl, rfl, hjoin, hrun⟩ := rounds_bare (P := (· = [])) (f := f) iterate_documentRound rfl
    (fun rs _ _ _ _ ht _ _ hr => documentRound_run ht.present hr rs) hts hb rs
  exact ⟨texts, by rw [hjoin, List.append_nil], hrun⟩

/-- it is read to its end -/
theorem document_texts (hts : ∀ u ∈ ts, u.Bare) (rs : List Segment) :
    ∃ texts : List String, String.join texts = textOf ts ∧
      iterate rs (documentRound (segment .markup)) ⟨ts, f⟩ = .ok (rs ++ texts.map .text, ⟨[], f⟩) := by
  obtain ⟨texts, hjoin, hrun⟩ := texts_before (f := f) hts .nothing rs
  rw [List.append_nil] at hrun
  refine ⟨texts, hjoin, hrun.trans ?_⟩
  rw [iterate_documentRound]
  rfl

theorem document_bare (hts : ∀ u ∈ ts, u.Bare) (rs : List Segment) :
    ∃ texts : List String,
      iterate rs (documentRound (segment .markup)) ⟨ts, f⟩ = .ok (rs ++ texts.map .text, ⟨[], f⟩) := by
  obtain ⟨texts, -, hrun⟩ := document_texts hts rs
  exact ⟨texts, hrun⟩

/-- at most whitespace -/
def AtMostBlank (ts : List Token) : Prop := ts = [] ∨ ∃ w, w.isWhitespace = true ∧ ts = [w]

/-- the content of an element ends in front of its end tag, whose whitespace it leaves alone -/
theorem children_bare (hts : ∀ u ∈ ts, u.Bare) (p q : Position) (rest : List Token) (tag : String) (start : Position) :
    ∃ (texts : List String) (us : List Token), AtMostBlank us ∧
      children (segment .markup) tag start ⟨ts ++ closing p q rest, f⟩ = .ok (texts.map .text, ⟨us ++ closing p q rest, f⟩) := by
  have hi : ∀ rs, iterate rs (childRound (segment .markup) tag start) =
      childRound (segment .markup) tag start rs >>= Sum.elim (iterate · (childRound (segment .markup) tag start)) pure :=
    iterate_eq fun _ rs => settled_childRound (spends_segment .markup) tag trivial rs
  have hlast : ∀ rs ts, AtMostBlank ts → childRound (segment .markup) tag start rs ⟨ts ++ closing p q rest, f⟩ =
      .ok (.inr rs, ⟨ts ++ closing p q rest, f⟩) := by
    rintro rs ts (rfl | ⟨w, hw, rfl⟩)
    · rfl
    · have hpass : (TokenStream.mk ([w] ++ closing p q rest) f).passBlank .skipped =
          ⟨closing p q rest, f⟩ := if_pos hw
      have hend : (TokenStream.mk ([w] ++ closing p q rest) f).atEnd .kept = false := by
        rw [Token.isWhitespace, beq_iff_eq] at hw
        show w.isEnd = false
        simp [Token.isEnd, hw]
      rw [childRound, bind_ok (peek_run .skipped _), bind_ok (peekNext_run .skipped _), bind_ok (atEnd_run _), hend,
        TokenStream.peek, TokenStream.peekNext, hpass]
      rfl
  have hmore : ∀ rs t ts r s, t.Bare → (∀ u ∈ ts, u.Bare) → ¬ AtMostBlank (t :: ts) →
      segment .markup ⟨t :: ts ++ closing p q rest, f⟩ = .ok (r, s) →
      childRound (segment .markup) tag start rs ⟨t :: ts ++ closing p q rest, f⟩ = .ok (.inl (rs ++ [r]), s) := by
    intro rs t ts r s ht hts hl hr
    -- one of the next two tokens is looked at, and both are of the text
    have hmark : ((TokenStream.mk (t :: ts ++ closing p q rest) f).peek .skipped).is "<" =
        false := by
      rw [TokenStream.peek, TokenStream.passBlank]
      split
      · next hw =>
        cases ts with
        | nil => exact absurd (.inr ⟨t, hw, rfl⟩) hl
        | cons u ts => exact (hts u List.mem_cons_self).closed
      · exact ht.closed
    have hend : (TokenStream.mk (t :: ts ++ closing p q rest) f).atEnd .kept = false :=
      ht.present
    rw [childRound, bind_ok (peek_run .skipped _), bind_ok (peekNext_run .skipped _), bind_ok (atEnd_run _), hend, hmark,
      if_neg Bool.false_ne_true, Bool.false_and, if_neg Bool.false_ne_true, bind_ok hr]
    rfl
  obtain ⟨texts, us, vs, -, hvs, -, hrun⟩ := rounds_bare hi (.inl rfl) hmore hts (.endTag p q rest) []
  refine ⟨texts, vs, hvs, hrun.trans ?_⟩
  rw [hi, bind_ok (hlast _ vs hvs)]
  rfl

end Grammar

end TemplateView
