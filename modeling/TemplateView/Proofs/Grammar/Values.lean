/-
How attribute values are read. A value is a row of pieces: single tokens of text, `@@` for one `@`, comments, and
expressions. `ReadsValue` says what the pieces of some tokens are, and `Piece.parts` which parts the parser makes of them:
text is cut before each `@`, whatever that opens. Joined again, they are all text between the expressions
(`Piece.joinTexts_parts`); they are so themselves where no `@@` and no comment stands behind text
(`Piece.parts_eq_joined`), and an `@@` there splits it (`Piece.not_textsApart`).
-/
import Mathlib.Data.List.Chain
import TemplateView.Proofs.Grammar.Spelled

namespace TemplateView.Grammar

open TemplateView.Parser

/-! ## Pieces -/

/-- a piece of an attribute value as it is written; those that an `@` opens may have whitespace before it -/
inductive Piece where
  /-- a token of text -/
  | plain (text : String)
  /-- `@@` -/
  | escape (leading : String)
  /-- `@* text *@` -/
  | comment (leading text : String)
  | inline (inline : InlineExpression)

namespace Piece

/-- the piece holds text of the value -/
def isText : Piece → Bool
  | .plain _ => true
  | .escape _ => true
  | _ => false

/-- text is cut before such a piece although it goes on behind -/
def isCut : Piece → Bool
  | .escape _ => true
  | .comment .. => true
  | _ => false

/-- text as a part, unless there is none -/
def textPart (text : String) : List ValuePart := withText [] text

/-- the parts of a value, given the text before its pieces: text is cut before each piece that an `@` opens -/
def parts (text : String) : List Piece → List ValuePart
  | [] => textPart text
  | .plain more :: ps => parts (text ++ more) ps
  | .escape leading :: ps => textPart text ++ parts (leading ++ "@") ps
  | .comment .. :: ps => textPart text ++ parts "" ps
  | .inline i :: ps => textPart text ++ .inline i :: parts "" ps

/-- the expressions of a value, and as one part each all text between two of them, with `@@` read as `@` and comments
left out -/
def joined (text : String) : List Piece → List ValuePart
  | [] => textPart text
  | .plain more :: ps => joined (text ++ more) ps
  | .escape leading :: ps => joined (text ++ (leading ++ "@")) ps
  | .comment .. :: ps => joined text ps
  | .inline i :: ps => textPart text ++ .inline i :: joined "" ps

/-- the text that a piece leaves behind it, where text is cut before it -/
def behind : Piece → String
  | .plain text => text
  | .escape leading => leading ++ "@"
  | _ => ""

/-- what an `@` opens there -/
def segment : Piece → Segment
  | .plain text => .text text
  | .escape leading => .text (leading ++ "@")
  | .comment _ text => .comment text
  | .inline i => .inline i

end Piece

/-! ## Reading -/

/-- an `@` between two words belongs to an address -/
def isAddress (text : String) (after : Token) : Bool :=
  (text.toList.getLast?.map Text.isAlphanumeric).getD false && after.isAlphanumeric

/-- the next tokens are an `@` that is no address, with or without whitespace before it -/
def Opens (text : String) (s : TokenStream) : Prop :=
  if (s.peek .kept).isDelimiter then isAddress text (s.peekNext .kept) = false
  else (s.peek .kept).isWhitespace = true ∧ (s.peekNext .kept).isDelimiter = true

/-- the tokens of a piece that an `@` opens -/
inductive Piece.WrittenAs : Piece → List Token → Prop
  | escape {lead : List Token} {first second : Token} : (∀ t ∈ lead, t.isWhitespace = true) →
    first.isDelimiter = true → second.isDelimiter = true →
    WrittenAs (.escape (textOf lead)) (lead ++ [first, second])
  | comment {lead body : List Token} {mark first last close : Token} : (∀ t ∈ lead, t.isWhitespace = true) →
    mark.isDelimiter = true → first.is "*" = true → last.is "*" = true → close.isDelimiter = true →
    WrittenAs (.comment (textOf lead) (textOf body)) (lead ++ mark :: first :: (body ++ [last, close]))
  | inline {lead code : List Token} {i : InlineExpression} : textOf lead = i.leading → Alone code i.expression →
    WrittenAs (.inline i) (lead ++ code)

/-- the tokens of a value are its pieces, up to the closing quote; `text` is what was read since the last `@` -/
inductive ReadsValue (quote : String) (f : Position) : String → List Token → List Piece → List Token → Prop
  | close {text : String} {q : Token} {rest : List Token} : q.is quote = true →
    ReadsValue quote f text (q :: rest) [] (q :: rest)
  | plain {text : String} {t : Token} {ts rest : List Token} {ps : List Piece} : t.is quote = false →
    ¬ Opens text ⟨t :: ts, f⟩ → ReadsValue quote f (text ++ t.text) ts ps rest →
    ReadsValue quote f text (t :: ts) (.plain t.text :: ps) rest
  | opened {text : String} {used ts rest : List Token} {p : Piece} {ps : List Piece} :
    Opens text ⟨used ++ ts, f⟩ → p.WrittenAs used → ReadsValue quote f p.behind ts ps rest →
    ReadsValue quote f text (used ++ ts) (p :: ps) rest

instance (text : String) (s : TokenStream) : Decidable (Opens text s) := by
  unfold Opens
  infer_instance

theorem startsInline_run (text : String) (s : TokenStream) :
    startsInline (s.peek .kept) text s = .ok (decide (Opens text s), s) := by
  unfold startsInline
  split
  · next h =>
    show Except.ok (!isAddress text (s.peekNext .kept), s) = _
    simp only [Opens, h, if_true]
    cases isAddress text (s.peekNext .kept) <;> rfl
  · next h =>
    show Except.ok ((s.peek .kept).isWhitespace && (s.peekNext .kept).isDelimiter, s) = _
    simp [Opens, h]

/-! ## What an `@` opens in a value -/

variable {inner : Place → Parser Segment}

theorem takes_lead (s : TokenStream) :
    Takes blank s fun used text => textOf used = text ∧ ∀ t ∈ used, t.isWhitespace = true := by
  refine takes_peek ?_
  split
  · next hw =>
    refine takes_bind (takes_consume (Q := fun used t => used = [t] ∧ t.isWhitespace = true) ⟨rfl, hw⟩) ?_
    intro _ t _ _ he
    obtain ⟨rfl, ht⟩ := he
    exact takes_pure ⟨by simp, by simpa using ht⟩
  · exact takes_pure ⟨rfl, nofun⟩

/-- the tokens of a comment behind its `@` -/
theorem takes_templateComment (start : Position) (s : TokenStream) :
    Takes (templateComment start) s fun used text => ∃ first body last close,
      used = first :: (body ++ [last, close]) ∧ first.is "*" = true ∧ last.is "*" = true ∧ close.isDelimiter = true ∧
        textOf body = text := by
  refine takes_bind (takes_expected (e := .text "*") (Q := fun used t => used = [t] ∧ t.is "*" = true)
    fun t ht => ⟨rfl, ht⟩) ?_
  intro _ first t _ he
  obtain ⟨rfl, hfirst⟩ := he
  refine (takes_iterate (I := fun used text => textOf used = text) (Q := fun used text => ∃ body last close,
    used = body ++ [last, close] ∧ last.is "*" = true ∧ close.isDelimiter = true ∧ textOf body = text) rfl ?_).mono ?_
  · intro used text t hu
    refine takes_peek (takes_peekNext ?_)
    split
    · exact takes_fail
    split
    · next hstar =>
      rw [Bool.and_eq_true] at hstar
      obtain ⟨rest, f⟩ := t
      match rest with
      | [] => cases hstar.1
      | [_] => cases hstar.2
      | last :: close :: rest =>
        refine takes_bind (takes_consume (Q := fun used _ => used = [last]) rfl) ?_
        intro _ _ t₁ hs₁ he
        subst he
        have ht₁ : t₁ = ⟨close :: rest, f⟩ := by cases t₁; cases hs₁; rfl
        subst ht₁
        refine takes_bind (takes_consume (Q := fun used _ => used = [close]) rfl) ?_
        intro _ _ t₂ _ he
        subst he
        exact takes_pure ⟨used, last, close, by simp, hstar.1, hstar.2, hu⟩
    · refine takes_bind (takes_consume (Q := fun used t => used = [t]) rfl) ?_
      intro _ next _ _ he
      subst he
      exact takes_pure (by simp [hu])
  · intro _ text h
    obtain ⟨body, last, close, rfl, hlast, hclose, ht⟩ := h
    exact ⟨first, body, last, close, rfl, hfirst, hlast, hclose, ht⟩

/-- what may stand in a value is `@@`, a comment or an inline expression -/
theorem construct_inValue {leading : String} {mark : Token} {s t : TokenStream} {r : Segment}
    (h : construct inner leading mark s = .ok (r, t)) (hr : mayStandInValue r = true) :
    (r = .text (leading ++ "@") ∧ ∃ second, second.isDelimiter = true ∧ s = ⟨second :: t.rest, t.finish⟩) ∨
      (∃ text, r = .comment text ∧ templateComment mark.position s = .ok (text, t)) ∨ ∃ i, r = .inline i := by
  have hcode : ∀ {m : Parser Segment}, Gives (mayStandInValue · = false) m → m s = .ok (r, t) → False := by
    intro m hm h
    rw [hm s r t h] at hr
    cases hr
  have hinline : ∀ {m : Parser Expression}, (do return .inline ⟨← m, leading⟩ : Parser Segment) s = .ok (r, t) →
      ∃ i, r = .inline i := by
    intro m h
    obtain ⟨x, _, -, hp⟩ := bind_ok_iff.1 h
    cases hp
    exact ⟨_, rfl⟩
  rw [construct, bind_ok (peek_run .kept _)] at h
  split at h
  · next hd =>
    obtain ⟨second, t', ht, hp⟩ := bind_ok_iff.1 h
    cases hp
    have hs : s = ⟨second :: t.rest, t.finish⟩ := consume_eq_ok.1 ht
    subst hs
    exact .inl ⟨rfl, second, hd, rfl⟩
  split at h
  · obtain ⟨text, t', ht, hp⟩ := bind_ok_iff.1 h
    cases hp
    exact .inr (.inl ⟨text, rfl, ht⟩)
  split at h
  · exact .inr (.inr (hinline h))
  split at h
  · exact (hcode (gives_bind fun _ => gives_pure rfl) h).elim
  split at h
  · split at h
    · exact (hcode gives_helper h).elim
    split at h
    · exact (hcode gives_namedSection h).elim
    split at h
    · exact (hcode gives_control h).elim
    · exact .inr (.inr (hinline h))
  · exact (hcode gives_fail h).elim

/-- the tokens of an `@` with what it opens in a value -/
theorem embedded_written {s t : TokenStream} {r : Segment} (h : embedded inner s = .ok (r, t))
    (hr : mayStandInValue r = true) :
    ∃ used p, s = ⟨used ++ t.rest, t.finish⟩ ∧ Piece.WrittenAs p used ∧ r = p.segment := by
  obtain ⟨leading, s₁, hlead, h₁⟩ := bind_ok_iff.1 h
  obtain ⟨mark, s₂, hmark, h₂⟩ := bind_ok_iff.1 h₁
  obtain ⟨lead, hs, ht, hw⟩ := takes_lead s leading s₁ hlead
  obtain ⟨hs₁, hd⟩ := consumeExpected_eq_ok.1 (taking_eq_ok.1 hmark)
  have hs₁ : s₁ = ⟨mark :: s₂.rest, s₂.finish⟩ := hs₁
  subst hs₁ ht
  rcases construct_inValue h₂ hr with ⟨rfl, second, hsecond, hs₂⟩ | ⟨text, rfl, hc⟩ | ⟨i, rfl⟩
  · exact ⟨lead ++ [mark, second], _, by rw [hs, hs₂]; simp, .escape hw hd hsecond, rfl⟩
  · obtain ⟨_, hs₂, first, body, last, close, rfl, hfirst, hlast, hclose, rfl⟩ :=
      takes_templateComment mark.position s₂ text t hc
    exact ⟨lead ++ mark :: first :: (body ++ [last, close]), _, by rw [hs, hs₂]; simp,
      .comment hw hd hfirst hlast hclose, rfl⟩
  · obtain ⟨lead, code, hs, hl, ha⟩ := embedded_alone h
    exact ⟨lead ++ code, .inline i, hs, .inline hl ha, rfl⟩

/-! ## Values -/

theorem withText_eq (parts : List ValuePart) (text : String) : withText parts text = parts ++ Piece.textPart text := by
  unfold Piece.textPart withText
  split <;> simp

variable {quote : Token}

/-- one round reads a piece, or stops at the closing quote -/
theorem reads_round {parts : List ValuePart} {text : String} {ts : List Token} {f : Position} {t : TokenStream}
    {x : (List ValuePart × String) ⊕ List ValuePart}
    (h : valueRound (embedded inner) quote parts text ⟨ts, f⟩ = .ok (x, t)) :
    match x with
    | .inr r => r = parts ++ Piece.textPart text ∧ ReadsValue quote.text f text ts [] t.rest
    | .inl next => ∃ p, t.finish = f ∧
        (∀ ps, parts ++ Piece.parts text (p :: ps) = next.1 ++ Piece.parts next.2 ps) ∧
        ∀ ps rest, ReadsValue quote.text f next.2 t.rest ps rest → ReadsValue quote.text f text ts (p :: ps) rest := by
  rw [valueRound, bind_ok (peek_run .kept _), bind_ok (startsInline_run text _)] at h
  split at h
  · next hq =>
    cases h
    refine ⟨withText_eq parts text, ?_⟩
    match ts with
    | [] => cases hq
    | q :: ts => exact .close hq
  split at h
  · cases h
  next hq hend =>
  split at h
  · next hopen =>
    have hopen := of_decide_eq_true hopen
    obtain ⟨r, t₁, hr, h⟩ := bind_ok_iff.1 h
    have hv : mayStandInValue r = true := by cases r <;> first | rfl | cases h
    obtain ⟨used, p, hs, hp, rfl⟩ := embedded_written hr hv
    cases hs
    cases hp with
    | escape hw hd hsecond =>
      cases h
      exact ⟨_, rfl, fun ps => by simp [Piece.parts, withText_eq], fun ps rest hps =>
        .opened hopen (.escape hw hd hsecond) hps⟩
    | comment hw hd hfirst hlast hclose =>
      cases h
      exact ⟨_, rfl, fun ps => by simp [Piece.parts, withText_eq], fun ps rest hps =>
        .opened hopen (.comment hw hd hfirst hlast hclose) hps⟩
    | inline hl ha =>
      cases h
      exact ⟨_, rfl, fun ps => by simp [Piece.parts, withText_eq], fun ps rest hps =>
        .opened hopen (.inline hl ha) hps⟩
  · next hopen =>
    obtain ⟨u, t₁, hu, hp⟩ := bind_ok_iff.1 h
    cases hp
    have hs : (⟨ts, f⟩ : TokenStream) = ⟨u :: t.rest, t.finish⟩ := consume_eq_ok.1 hu
    cases hs
    refine ⟨.plain u.text, rfl, fun ps => rfl, fun ps rest hps => ?_⟩
    exact .plain (Bool.eq_false_iff.2 hq) (by simpa using hopen) hps

/-- the value that a loop reads, from any of its rounds on -/
theorem reads_loop {n : Nat} {parts result : List ValuePart} {text : String} {ts : List Token} {f : Position}
    {t : TokenStream}
    (h : loop (fun p : List ValuePart × String => valueRound (embedded inner) quote p.1 p.2) n (parts, text) ⟨ts, f⟩ =
      .ok (result, t)) :
    ∃ ps, ReadsValue quote.text f text ts ps t.rest ∧ result = parts ++ Piece.parts text ps := by
  induction n generalizing parts text ts with
  | zero => cases h
  | succ n ih =>
    obtain ⟨x, t₁, hround, hrest⟩ := bind_ok_iff.1 h
    have hx := reads_round hround
    cases x with
    | inr r =>
      cases hrest
      exact ⟨[], hx.2, hx.1⟩
    | inl next =>
      obtain ⟨p, rfl, hparts, hreads⟩ := hx
      obtain ⟨ps, hps, rfl⟩ := ih hrest
      exact ⟨p :: ps, hreads ps _ hps, (hparts ps).symm⟩

/-! ## Text between expressions -/

/-- parts with neighbouring texts joined to one -/
def joinTexts : List ValuePart → List ValuePart
  | [] => []
  | .inline i :: ps => .inline i :: joinTexts ps
  | .text s :: ps =>
    match joinTexts ps with
    | .text t :: qs => .text (s ++ t) :: qs
    | qs => .text s :: qs

/-- no two texts stand side by side -/
def TextsApart (parts : List ValuePart) : Prop :=
  parts.IsChain fun a b => a.isInline = true ∨ b.isInline = true

namespace Piece

theorem textPart_empty : textPart "" = [] := rfl

theorem textPart_of_ne {s : String} (h : s ≠ "") : textPart s = [.text s] := by
  simp [textPart, withText, h]

/-- text in front goes to the first text -/
theorem joined_append {s : String} (hs : s ≠ "") (text : String) (ps : List Piece) :
    joined (s ++ text) ps =
      match joined text ps with
      | .text t :: qs => .text (s ++ t) :: qs
      | qs => .text s :: qs := by
  have hpart : ∀ (text : String) (qs : List ValuePart), (∀ t rs, qs ≠ .text t :: rs) → textPart (s ++ text) ++ qs =
      match textPart text ++ qs with
      | .text t :: qs => .text (s ++ t) :: qs
      | qs => .text s :: qs := by
    intro text qs hqs
    have hne : s ++ text ≠ "" := by simp [String.append_eq_empty_iff, hs]
    by_cases ht : text = ""
    · subst ht
      rw [String.append_empty, textPart_of_ne hs, textPart_empty]
      cases qs with
      | nil => rfl
      | cons q qs =>
        cases q with
        | text t => exact absurd rfl (hqs t qs)
        | inline i => rfl
    · rw [textPart_of_ne hne, textPart_of_ne ht]
      rfl
  induction ps generalizing text with
  | nil => simpa [joined] using hpart text [] nofun
  | cons p ps ih =>
    cases p with
    | plain more => rw [joined, joined, String.append_assoc]; exact ih (text ++ more)
    | escape leading => rw [joined, joined, String.append_assoc]; exact ih (text ++ (leading ++ "@"))
    | comment => rw [joined, joined]; exact ih text
    | inline i => rw [joined, joined]; exact hpart text _ nofun

/-- **The parts hold the text of the pieces.** However it is cut, all text between two expressions is there in order. -/
theorem joinTexts_parts (text : String) (ps : List Piece) : joinTexts (parts text ps) = joined text ps := by
  have hcut : ∀ (text more : String) (ps : List Piece), joinTexts (parts more ps) = joined more ps →
      joinTexts (textPart text ++ parts more ps) = joined (text ++ more) ps := by
    intro text more ps h
    by_cases ht : text = ""
    · subst ht
      rw [textPart_empty, String.empty_append]
      exact h
    · rw [textPart_of_ne ht, joined_append ht, List.singleton_append, joinTexts, h]
  induction ps generalizing text with
  | nil =>
    rw [parts, joined]
    by_cases ht : text = ""
    · subst ht; rfl
    · rw [textPart_of_ne ht]; rfl
  | cons p ps ih =>
    cases p with
    | plain more => rw [parts, joined]; exact ih (text ++ more)
    | escape leading => rw [parts, joined]; exact hcut text _ ps (ih _)
    | comment leading s =>
      rw [parts, joined, hcut text "" ps (ih ""), String.append_empty]
    | inline i =>
      have hi : joinTexts (.inline i :: parts "" ps) = .inline i :: joined "" ps := by rw [joinTexts, ih ""]
      rw [parts, joined]
      by_cases ht : text = ""
      · subst ht; exact hi
      · rw [textPart_of_ne ht, List.singleton_append, joinTexts, hi]
        rfl

/-- the parts with whole texts have no two texts side by side -/
theorem textsApart_joined (text : String) (ps : List Piece) : TextsApart (joined text ps) := by
  induction ps generalizing text with
  | nil =>
    rw [joined]
    by_cases ht : text = ""
    · subst ht; exact .nil
    · rw [textPart_of_ne ht]; exact .singleton _
  | cons p ps ih =>
    cases p with
    | plain more => exact ih (text ++ more)
    | escape leading => exact ih (text ++ (leading ++ "@"))
    | comment => exact ih text
    | inline i =>
      have hi : TextsApart (.inline i :: joined "" ps) := List.isChain_cons.2 ⟨fun _ _ => .inl rfl, ih ""⟩
      rw [joined]
      by_cases ht : text = ""
      · subst ht; exact hi
      · rw [textPart_of_ne ht]
        exact List.isChain_cons_cons.2 ⟨.inr rfl, hi⟩

/-- where no `@@` and no comment stands behind text, text is cut only before expressions -/
theorem parts_eq_joined {text : String} {ps : List Piece} (h : ps.IsChain fun a b => ¬ (a.isText = true ∧ b.isCut = true))
    (ht : text = "" ∨ ∀ p ∈ ps.head?, p.isCut = false) : parts text ps = joined text ps := by
  induction ps generalizing text with
  | nil => rfl
  | cons p ps ih =>
    obtain ⟨hp, hps⟩ := List.isChain_cons.1 h
    have hbehind : p.isText = true → ∀ q ∈ ps.head?, q.isCut = false := fun hpt q hq => by
      simpa [hpt] using hp q hq
    have hempty : p.isCut = true → text = "" := fun hc => ht.resolve_right fun hn => by
      rw [hn p rfl] at hc
      cases hc
    cases p with
    | plain more => exact ih hps (.inr (hbehind rfl))
    | escape leading =>
      rw [parts, joined, hempty rfl, textPart_empty, String.empty_append]
      exact ih hps (.inr (hbehind rfl))
    | comment =>
      rw [parts, joined, hempty rfl, textPart_empty]
      exact ih hps (.inl rfl)
    | inline i => rw [parts, joined, ih hps (.inl rfl)]

/-- text makes a part in front -/
theorem parts_of_text {text : String} {ps : List Piece} (h : text ≠ "" ∨ ∃ p ∈ ps.head?, p.behind ≠ "") :
    ∃ s qs, parts text ps = .text s :: qs := by
  have key : ∀ (ps : List Piece) {text : String}, text ≠ "" → ∃ s qs, parts text ps = .text s :: qs := by
    intro ps
    induction ps with
    | nil => exact fun ht => ⟨_, _, textPart_of_ne ht⟩
    | cons p ps ih =>
      intro text ht
      cases p with
      | plain more => exact ih (by simp [String.append_eq_empty_iff, ht])
      | _ => rw [parts, textPart_of_ne ht]; exact ⟨_, _, rfl⟩
  by_cases ht : text = ""
  · subst ht
    obtain ⟨p, hp, hb⟩ := h.resolve_left (fun h => h rfl)
    cases ps with
    | nil => cases hp
    | cons q ps =>
      cases hp
      cases p with
      | plain more => exact key ps (by simpa [behind] using hb)
      | escape leading => rw [parts]; exact key ps (by simp [String.append_eq_empty_iff])
      | comment => exact absurd rfl hb
      | inline i => exact absurd rfl hb
  · exact key ps ht

/-- the parts of more pieces stand behind, with the text that is left open before them -/
theorem parts_append {a : Piece} (ha : a.behind ≠ "") (before rest : List Piece) (text : String) :
    ∃ qs s, s ≠ "" ∧ parts text (before ++ a :: rest) = qs ++ parts s rest := by
  induction before generalizing text with
  | nil =>
    cases a with
    | plain more =>
      have hm : more ≠ "" := ha
      exact ⟨[], text ++ more, by simp [String.append_eq_empty_iff, hm], rfl⟩
    | escape leading => exact ⟨textPart text, leading ++ "@", by simp [String.append_eq_empty_iff], rfl⟩
    | comment => exact absurd rfl ha
    | inline i => exact absurd rfl ha
  | cons p before ih =>
    cases p with
    | plain more => exact ih (text ++ more)
    | escape leading =>
      obtain ⟨qs, s, hs, h⟩ := ih (leading ++ "@")
      exact ⟨textPart text ++ qs, s, hs, by rw [List.cons_append, parts, h, List.append_assoc]⟩
    | comment =>
      obtain ⟨qs, s, hs, h⟩ := ih ""
      exact ⟨textPart text ++ qs, s, hs, by rw [List.cons_append, parts, h, List.append_assoc]⟩
    | inline i =>
      obtain ⟨qs, s, hs, h⟩ := ih ""
      exact ⟨textPart text ++ .inline i :: qs, s, hs, by rw [List.cons_append, parts, h]; simp⟩

/-- behind text, an `@@` cuts it, and so does a comment with text behind it -/
theorem not_textsApart {a b : Piece} {before after : List Piece} (ha : a.behind ≠ "") (hb : b.isCut = true)
    (hc : b.behind ≠ "" ∨ ∃ p ∈ after.head?, p.behind ≠ "") (text : String) :
    ¬ TextsApart (parts text (before ++ a :: b :: after)) := by
  obtain ⟨qs, s, hs, h⟩ := parts_append ha before (b :: after) text
  obtain ⟨u, rs, hu⟩ := parts_of_text hc
  have hcut : parts s (b :: after) = [.text s, .text u] ++ rs := by
    cases b with
    | escape leading =>
      have hu : parts (leading ++ "@") after = .text u :: rs := hu
      rw [parts, textPart_of_ne hs, hu]
      rfl
    | comment =>
      have hu : parts "" after = .text u :: rs := hu
      rw [parts, textPart_of_ne hs, hu]
      rfl
    | plain more => cases hb
    | inline i => cases hb
  rw [h, hcut]
  intro hchain
  have hpair := ((List.isChain_append.1 hchain).2.1)
  rcases (List.isChain_cons_cons.1 hpair).1 with hi | hi <;> cases hi

end Piece

end TemplateView.Grammar
