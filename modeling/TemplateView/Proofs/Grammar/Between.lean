/-
Constructs between texts. An `@` and a closing brace are lexemes of their own wherever they stand (`Lone`), so a source
that begins and ends with them keeps its tokens between two texts. If it is one construct, it is read there as it is read
alone: the text in front of it ends before its `@`, unless the two make an address, and the text behind it is left alone,
unless it begins with an `else` that continues the construct (`parse_between`).
-/
import TemplateView.Proofs.Cursor
import TemplateView.Proofs.Grammar.Bare
import TemplateView.Proofs.Grammar.Braced
import TemplateView.Proofs.Grammar.Comments

namespace TemplateView

/-! ## Lone marks -/

/-- a character that is a lexeme of its own wherever it stands -/
structure Lone (m : Char) : Prop where
  alone : ∀ cs, (firstLexeme m cs).2.1 = [m]
  inner : ∀ c cs, m ∉ (firstLexeme c cs).2.1.tail

theorem lone_of {m : Char} (halone : ∀ cs, (firstLexeme m cs).2.1 = [m])
    (hop : ∀ s ∈ operatorTable, (!s.toList.tail.contains m) = true)
    (hpart : isWordPart m = false ∧ m.isDigit = false ∧ m ≠ '.' ∧ isSpace m = false) : Lone m where
  alone := halone
  inner c cs := by
    obtain ⟨x, hx, hx' | hparts⟩ := firstLexeme_cases c cs
    · have hnone := forall_operator (fun cs => !cs.tail.contains m) hop hx'
      rw [hx]
      simpa using hnone
    · rw [hx]
      intro hm
      simpa [hpart] using hparts m hm

theorem lone_at : Lone '@' :=
  lone_of (fun _ => rfl) (by decide +kernel) (by decide +kernel)

theorem lone_brace : Lone '\x7d' := by
  refine lone_of (fun cs => ?_) (by decide +kernel) (by decide +kernel)
  rw [firstLexeme_alone (by decide +kernel) fun d _ hop => ?_]
  have hall := forall_operator (fun cs => cs.head? != some '\x7d' || cs.length == 1) (by decide +kernel) hop
  simp at hall

namespace Lone

variable {m : Char} (h : Lone m)

include h

/-- such a character starts a token, whatever stands in front of it -/
theorem apart_before (cs ds : List Char) : Apart cs (m :: ds) := by
  refine apart_of_last ?_ ds
  rintro last - c rest ⟨before, behind, hsplit⟩
  refine h.inner c rest ?_
  rw [← hsplit]
  cases before <;> simp

/-- and the token ends with it, whatever stands behind -/
theorem apart_behind (cs ds : List Char) : Apart (cs ++ [m]) ds := by
  intro c rest hs
  have hsplit := firstLexeme_append c (rest ++ ds)
  rw [← List.cons_append] at hsplit
  obtain ⟨front, last, hlast⟩ := List.eq_nil_or_concat (c :: rest) |>.resolve_left (by simp)
  rw [List.concat_eq_append] at hlast
  obtain rfl : last = m := by
    obtain ⟨before, hbefore⟩ := hs
    rw [hlast, ← List.append_assoc] at hbefore
    exact (List.append_inj' hbefore rfl).2 |> List.cons.inj |>.1
  rcases List.append_eq_append_iff.1 hsplit with ⟨more, -, hrest⟩ | ⟨extra, hlex, hrest⟩
  · exact ⟨more, hrest⟩
  cases front with
  | nil =>
    -- the lexeme starts with the mark, so it is the mark
    obtain ⟨rfl, rfl⟩ := List.cons.inj hlast
    rw [h.alone] at hlex
    have hextra : extra = [] := by simpa using hlex
    rw [hextra, List.nil_append] at hrest
    exact ⟨[], hrest.symm⟩
  | cons d front =>
    -- the mark stands behind the first character of the lexeme
    refine absurd ?_ (h.inner c (rest ++ ds))
    rw [hlex, hlast]
    simp

end Lone

namespace Grammar

open TemplateView.Parser

/-! ## A source of one construct -/

/-- markup that a `<` opens is no construct -/
theorem gives_markup (inValue inner : Parser Segment) : Gives (·.isConstruct = false) (markup inValue inner) := by
  refine gives_bind fun _ => gives_bind fun _ => gives_bind fun next => ?_
  split
  · refine gives_bind fun _ => gives_bind fun next => ?_
    split
    · exact gives_bind fun _ => gives_pure rfl
    · exact gives_bind fun _ => gives_pure rfl
  refine gives_bind fun _ => gives_bind fun _ => gives_bind fun _ => gives_bind fun next => ?_
  split
  · exact gives_bind fun _ => gives_bind fun _ => gives_pure rfl
  refine gives_bind fun _ => ?_
  split
  · exact gives_pure rfl
  · exact gives_bind fun _ => gives_bind fun _ => gives_pure rfl

/-- behind the `@` of a construct stands what opens code -/
theorem opensCode_of_construct {leading : String} {mark : Token} {s t : TokenStream} {r : Segment}
    (h : construct segment leading mark s = .ok (r, t)) (hr : r.isConstruct = true) : opensCode (s.peek .kept) = true := by
  rw [construct, bind_ok (peek_run _ _)] at h
  rw [opensCode]
  split at h
  · exact absurd h (ne_of_gives (gives_bind fun _ => gives_pure rfl) hr)
  split at h
  · exact absurd h (ne_of_gives (gives_bind fun _ => gives_pure rfl) hr)
  split at h
  · exact absurd h (ne_of_gives (gives_bind fun _ => gives_pure rfl) hr)
  split at h
  · next hbrace => rw [hbrace, Bool.true_or, Bool.true_or]
  split at h
  · next hword =>
    rw [hword, Bool.true_and, Bool.or_eq_true]
    right
    split at h
    · next hhelper => rw [eq_of_beq hhelper]; decide
    split at h
    · next hsection => rw [eq_of_beq hsection]; decide
    split at h
    · next hcontrol =>
      simp only [Bool.or_eq_true, beq_iff_eq] at hcontrol
      obtain (h | h) | h := hcontrol <;> rw [h] <;> decide
    · exact absurd h (ne_of_gives (gives_bind fun _ => gives_pure rfl) hr)
  · cases h

/-- a document of one segment is this segment and no more -/
theorem document_single {m : Parser Segment} {s t : TokenStream} {r : Segment} (h : document m s = .ok ([r], t)) :
    ∃ u, m s = .ok (r, u) ∧ u.atEnd .kept = true := by
  have hround : ∀ (n : Nat) (rs rs' : List Segment) (s t : TokenStream), s.atEnd .kept ≠ true →
      loop (documentRound m) (n + 1) rs s = .ok (rs', t) →
      ∃ r u, m s = .ok (r, u) ∧ loop (documentRound m) n (rs ++ [r]) u = .ok (rs', t) := by
    intro n rs rs' s t he hl
    obtain ⟨x, u, hx, hrest⟩ := bind_ok_iff.1 hl
    rw [documentRound, bind_ok (atEnd_run s), if_neg he] at hx
    obtain ⟨r, v, hr, hx⟩ := bind_ok_iff.1 hx
    cases hx
    exact ⟨r, u, hr, hrest⟩
  by_cases he : s.atEnd .kept = true
  · rw [document, iterate, loop, bind_ok (a := .inr []) (by rw [documentRound, bind_ok (atEnd_run s), if_pos he]; rfl)] at h
    cases h
  · obtain ⟨r', u, hr, hrest⟩ := hround _ _ _ s t he h
    have hread : [] ++ [r'] <+: [r] := loop_documentRound_prefix _ _ hrest
    obtain rfl : r' = r := by simpa using hread.eq_of_length rfl
    refine ⟨u, hr, ?_⟩
    by_contra hu
    cases hn : s.remaining with
    | zero => rw [hn] at hrest; cases hrest
    | succ n =>
      rw [hn] at hrest
      obtain ⟨r₂, v, -, hmore⟩ := hround _ _ _ u t hu hrest
      have hread : [] ++ [r'] ++ [r₂] <+: [r'] := loop_documentRound_prefix _ _ hmore
      have hlen := hread.length_le
      simp at hlen

/-- a construct in markup is what an `@` opens, and code follows the `@` -/
theorem embedded_of_segment {s t : TokenStream} {r : Segment} (h : segment .markup s = .ok (r, t))
    (hr : r.isConstruct = true) : ∃ mark next ts, s = ⟨mark :: next :: ts, s.finish⟩ ∧ mark.isDelimiter = true ∧
      opensCode next = true ∧ embedded segment s = .ok (r, t) := by
  rw [segment_eq, segmentOver, markupSegment, bind_ok (peek_run .skipped _)] at h
  split at h
  · rw [bind_ok (peek_run .kept _), bind_ok (peekNth_run 2 _)] at h
    split at h
    · exact absurd h (ne_of_gives (gives_bind fun _ => gives_pure rfl) hr)
    next hblank =>
    by_cases hw : (s.peek .kept).isWhitespace = true
    · -- whitespace in front of the `@` would have been text
      have hrun := h
      rw [embedded, blank_bind_run hw] at hrun
      obtain ⟨w, s₁, hw', hrun⟩ := bind_ok_iff.1 hrun
      obtain ⟨mark, s₂, hm, hc⟩ := bind_ok_iff.1 hrun
      have hs : s = ⟨w :: s₁.rest, s₁.finish⟩ := consume_eq_ok.1 hw'
      have hs₁ : s₁ = ⟨mark :: s₂.rest, s₂.finish⟩ := (consumeExpected_eq_ok.1 (taking_eq_ok.1 hm)).1
      have hnext : s.peekNth 2 = s₂.peek .kept := by
        rw [hs, hs₁]
        rfl
      rw [hw, hnext, opensCode_of_construct hc hr] at hblank
      exact absurd rfl hblank
    · have hrun := h
      rw [embedded, bind_ok (blank_run (Bool.eq_false_iff.2 hw))] at hrun
      obtain ⟨mark, s₂, hm, hc⟩ := bind_ok_iff.1 hrun
      obtain ⟨hs, hmark⟩ := consumeExpected_eq_ok.1 (taking_eq_ok.1 hm)
      have hs : s = ⟨mark :: s₂.rest, s₂.finish⟩ := hs
      have hcode := opensCode_of_construct hc hr
      obtain ⟨rest, f⟩ := s₂
      cases rest with
      | nil => cases hcode
      | cons next ts => exact ⟨mark, next, ts, by rw [hs], hmark, hcode, h⟩
  · refine absurd h (ne_of_gives (gives_bind fun opens => ?_) hr)
    split
    · exact gives_markup _ _
    · exact gives_bind fun _ => gives_pure rfl

/-- a delimiter in front of a source is an `@` -/
theorem eq_at_of_isDelimiter {p : Position} {cs : List Char} {mark : Token} {ts : List Token}
    (h : tokensFrom p cs = mark :: ts) (hm : mark.isDelimiter = true) : mark = ⟨p, "@", .delimiter⟩ := by
  have hproper : mark.Proper := proper_tokensFrom p cs mark (h ▸ List.mem_cons_self)
  cases cs with
  | nil => rw [tokensFrom] at h; cases h
  | cons c cs =>
    rw [tokensFrom_cons] at h
    obtain ⟨rfl, -⟩ := List.cons.inj h
    rw [Token.mk.injEq]
    exact ⟨rfl, hproper.mark hm, eq_of_beq hm⟩

/-- **A source of one construct.** It begins with an `@` that opens code and ends with a brace, and all of it is taken. -/
theorem parse_construct {source : String} {r : Segment} (h : Template.parse source = .ok ⟨[r]⟩)
    (hr : r.isConstruct = true) : ∃ next ts us c t,
      tokensFrom .start source.toList = ⟨.start, "@", .delimiter⟩ :: next :: ts ∧ opensCode next = true ∧
      tokensFrom .start source.toList = us ++ [c] ∧ c.IsBrace ∧
      embedded segment (.ofSource source) = .ok (r, t) ∧ t.rest = [] := by
  obtain ⟨u, hu⟩ := parseAs_eq_ok.1 h
  obtain ⟨t, ht, hend⟩ := document_single hu
  obtain ⟨mark, next, ts, hs, hmark, hcode, hrun⟩ := embedded_of_segment ht hr
  have hproper := proper_tokensFrom .start source.toList
  have htokens : tokensFrom .start source.toList = mark :: next :: ts := congrArg TokenStream.rest hs
  obtain ⟨used, hused, -, hbrace⟩ := braced_embedded.ends _ r t hrun
  have hused : tokensFrom .start source.toList = used ++ t.rest := congrArg TokenStream.rest hused
  have hpresent : t.Present := fun c hc => (hproper c (hused ▸ List.mem_append_right used hc)).present
  have hrest : t.rest = [] := List.isEmpty_iff.1 ((TokenStream.isEnd_peekNth_zero hpresent).symm.trans hend)
  obtain ⟨us, c, rfl, hc⟩ := hbrace ⟨[], hr, fun _ _ => rfl⟩
  rw [hrest, List.append_nil] at hused
  rw [eq_at_of_isDelimiter htokens hmark] at htokens
  exact ⟨next, ts, us, c, t, htokens, hcode, hused, (hproper c (by rw [hused]; simp)).isBrace hc, hrun, hrest⟩

variable {before source behind : String} {r : Segment}

/-- the tokens of a construct between two texts are those of the three alone -/
theorem tokens_between (before behind : String) {next c : Token} {ts us : List Token}
    (hfirst : tokensFrom .start source.toList = ⟨.start, "@", .delimiter⟩ :: next :: ts)
    (hlast : tokensFrom .start source.toList = us ++ [c]) (hc : c.IsBrace) :
    ∃ p q, tokensFrom .start (before ++ source ++ behind).toList =
      tokensFrom .start before.toList ++ (tokensFrom p source.toList ++ tokensFrom q behind.toList) := by
  have htext := textOf_tokensFrom .start source.toList
  have hat : ∃ cs, source.toList = '@' :: cs := by
    rw [hfirst, String.ofList_toList] at htext
    exact ⟨_, by rw [← htext]; simp; rfl⟩
  have hbrace : ∃ cs, source.toList = cs ++ ['\x7d'] := by
    rw [hlast, String.ofList_toList] at htext
    exact ⟨_, by rw [← htext, textOf_append, textOf_cons, hc.text]; simp; rfl⟩
  obtain ⟨cs, hcs⟩ := hat
  obtain ⟨ds, hds⟩ := hbrace
  have hbefore : Apart before.toList source.toList := by
    rw [hcs]
    exact lone_at.apart_before _ _
  have hbehind : Apart (before.toList ++ source.toList) behind.toList := by
    rw [hds, ← List.append_assoc]
    exact lone_brace.apart_behind _ _
  rw [String.toList_append, String.toList_append, tokensFrom_append hbehind, tokensFrom_append hbefore, List.append_assoc]
  exact ⟨_, _, rfl⟩

/-- an `@` without whitespace in front of it is next, so what it opens is the segment -/
theorem segment_marked (p : Position) (ts : List Token) (f : Position) :
    segment .markup ⟨⟨p, "@", .delimiter⟩ :: ts, f⟩ = embedded segment ⟨⟨p, "@", .delimiter⟩ :: ts, f⟩ := by
  rw [segment_eq]
  rfl

theorem opensElse_same {s s' : TokenStream} (h : SameTokens s.rest s'.rest) : s.opensElse = s'.opensElse :=
  ((Sequel.aligned_ended.2 h).peek .skipped).is "else"

/-- the same tokens begin with an `@` that opens code, if the first ones do -/
theorem sameTokens_marked {p : Position} {next : Token} {ts vs : List Token}
    (h : SameTokens (⟨p, "@", .delimiter⟩ :: next :: ts) vs) (hn : opensCode next = true) :
    ∃ p' next' ts', vs = ⟨p', "@", .delimiter⟩ :: next' :: ts' ∧ opensCode next' = true := by
  obtain _ | @⟨_, mark, _, _, hm, _ | @⟨_, next', _, ts', hnext, -⟩⟩ := h
  obtain ⟨p', text, category⟩ := mark
  obtain ⟨rfl, rfl⟩ : "@" = text ∧ Category.delimiter = category := ⟨hm.text, hm.category⟩
  refine ⟨p', next', ts', rfl, ?_⟩
  rw [opensCode, ← hnext.is, ← hnext.is, ← hnext.isAlphanumeric, ← hnext.text]
  exact hn

/-- a stream that begins with a construct that ends with a brace leaves what stands behind that -/
theorem segment_in_front {r : Segment} {t : TokenStream} (hrun : embedded segment (.ofSource source) = .ok (r, t))
    (hrest : t.rest = []) {p p' : Position} {next c : Token} {ts us : List Token}
    (hfirst : tokensFrom p source.toList = ⟨p', "@", .delimiter⟩ :: next :: ts)
    (hlast : tokensFrom .start source.toList = us ++ [c]) (hc : c.IsBrace) {more : List Token} (f : Position)
    (hr : r.MayPrecede more) :
    ∃ r' g, segment .markup ⟨tokensFrom p source.toList ++ more, f⟩ = .ok (r', ⟨more, g⟩) ∧ r.Same r' := by
  have hsame : SameTokens (us ++ [c]) (tokensFrom p source.toList) := hlast ▸ sameTokens_tokensFrom _ _ _
  obtain ⟨us', cs', hsplit, hus, hcs⟩ := sameTokens_append hsame
  obtain _ | @⟨_, c', _, _, hcc, ⟨⟩⟩ := hcs
  have haligned : (Sequel.brace ⟨c, c', more, hcc, hc⟩).Aligned (.ofSource source)
      ⟨tokensFrom p source.toList ++ more, f⟩ := by
    refine ⟨us, us', hus, hlast, ?_⟩
    show tokensFrom p source.toList ++ more = us' ++ c' :: more
    rw [hsplit, List.append_assoc]
    rfl
  obtain ⟨r', t', hrun', hr', hreached⟩ := braced_embedded.closes _ _ _ haligned r t hrun hr
  have ht' : t'.rest = more := by
    rcases hreached with ⟨vs, vs', -, hvs, -⟩ | ⟨-, ht'⟩
    · rw [hrest] at hvs
      exact absurd hvs.symm (List.append_ne_nil_of_right_ne_nil _ (List.cons_ne_nil _ _))
    · exact ht'
  refine ⟨r', t'.finish, ?_, hr'⟩
  rw [hfirst, List.cons_append, segment_marked, ← List.cons_append, ← hfirst, hrun', ← ht']

/-- **A construct between two texts is read as it is alone.** The texts are read as texts, and none of them is dropped. -/
theorem parse_between (hbefore : '@' ∉ before.toList ∧ '<' ∉ before.toList) (hends : endsAlphanumeric before = false)
    (hbehind : '@' ∉ behind.toList ∧ '<' ∉ behind.toList) (h : Template.parse source = .ok ⟨[r]⟩)
    (hr : r.isConstruct = true) (helse : r.isOpen = true → (TokenStream.ofSource behind).opensElse = false) :
    ∃ (befores behinds : List String) (r' : Segment),
      Template.parse (before ++ source ++ behind) = .ok ⟨befores.map .text ++ r' :: behinds.map .text⟩ ∧
      String.join befores = before ∧ String.join behinds = behind ∧ r.Same r' := by
  obtain ⟨next, ts, us, c, t, hfirst, hcode, hlast, hc, hrun, hrest⟩ := parse_construct h hr
  obtain ⟨p, q, htokens⟩ := tokens_between before behind hfirst hlast hc
  have htext : ∀ (p : Position) (s : String), textOf (tokensFrom p s.toList) = s := fun p s => by
    rw [textOf_tokensFrom, String.ofList_toList]
  obtain ⟨p', next', ts', hfirst', hcode'⟩ :=
    sameTokens_marked (hfirst ▸ sameTokens_tokensFrom .start p source.toList) hcode
  have hmay : r.MayPrecede (tokensFrom q behind.toList) :=
    ⟨hr, fun ho f => (opensElse_same (sameTokens_tokensFrom _ _ _)).trans (helse ho)⟩
  obtain ⟨r', g, hsegment, hsame⟩ := segment_in_front hrun hrest hfirst' hlast hc
    (Position.start.after (before ++ source ++ behind).toList) hmay
  have hfollows : Follows (textOf (tokensFrom .start before.toList))
      (tokensFrom p source.toList ++ tokensFrom q behind.toList) := by
    rw [htext, hfirst']
    exact .code p' _ hcode' hends
  obtain ⟨befores, hbefores, hfront⟩ := texts_before (f := Position.start.after (before ++ source ++ behind).toList)
    (bare_tokensFrom hbefore .start) hfollows []
  obtain ⟨behinds, hbehinds, hback⟩ := document_texts (f := g) (bare_tokensFrom hbehind q) (befores.map .text ++ [r'])
  refine ⟨befores, behinds, r', parseAs_eq_ok.2 ⟨⟨[], g⟩, ?_⟩, hbefores.trans (htext _ _), hbehinds.trans (htext _ _), hsame⟩
  rw [TokenStream.ofSource, htokens, document, hfront, List.nil_append, hfirst', List.cons_append]
  rw [hfirst', List.cons_append] at hsegment
  rw [iterate_documentRound, bind_ok (documentRound_run rfl hsegment _)]
  show iterate (befores.map .text ++ [r']) _ _ = _
  rw [hback, List.append_assoc]
  rfl

end Grammar

end TemplateView
