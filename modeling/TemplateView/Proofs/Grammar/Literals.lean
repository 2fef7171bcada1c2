/-
Literals stand for values, and names are words. The lexemes of numbers are decimals, and every decimal is read as a number
without a sign (`unsigned_of_read?`); a text between two quotes of one kind has the text inside as its value; three words
are values. So whatever a grammar takes for a literal has a value, and `Token.Readable` is what it has to know of its tokens
for that and for the names that it takes.
-/
import Mathlib.Data.List.TakeWhile
import TemplateView.Generation.Literal
import TemplateView.Proofs.Grammar.Lexemes
import TemplateView.Proofs.Number.Unsigned

namespace TemplateView

/-! ## Decimals -/

/-- digits with at most one point among them, and at least one digit -/
inductive Decimal : List Char → Prop
  | whole (digits : List Char) (h : digits.all Char.isDigit = true) (hne : digits ≠ []) : Decimal digits
  | pointed (digits more : List Char) (h : digits.all Char.isDigit = true) (hm : more.all Char.isDigit = true)
      (hne : digits ++ more ≠ []) : Decimal (digits ++ '.' :: more)

/-- the lexeme of a number is a decimal -/
theorem decimal_firstLexeme {c : Char} {cs : List Char} (h : (firstLexeme c cs).1 = .numeric) :
    Decimal (firstLexeme c cs).2.1 := by
  unfold firstLexeme at h ⊢
  split
  · next hw => rw [if_pos hw] at h; cases h
  · next hw =>
    rw [if_neg hw] at h
    split
    · next hd =>
      have hall : (c :: cs.takeWhile Char.isDigit).all Char.isDigit = true := by
        rw [List.all_cons, hd, List.all_takeWhile]; rfl
      simp only [numberTail]
      split
      · next more _ => exact .pointed (c :: cs.takeWhile Char.isDigit) _ hall List.all_takeWhile (by simp)
      · exact .whole _ hall (by simp)
    · next hd =>
      rw [if_neg hd] at h
      split
      · next hp =>
        obtain ⟨hc, hs⟩ := Bool.and_eq_true_iff.1 hp
        rw [beq_iff_eq] at hc
        subst hc
        refine .pointed [] _ rfl List.all_takeWhile ?_
        cases cs with
        | nil => cases hs
        | cons d ds =>
          have hd : d.isDigit = true := hs
          simp [hd]
      · next hp =>
        rw [if_neg hp] at h
        repeat' split at h
        all_goals cases h

/-- a decimal starts with a digit or a point -/
theorem Decimal.head {cs : List Char} (h : Decimal cs) : ∃ c rest, cs = c :: rest ∧ (c.isDigit = true ∨ c = '.') := by
  cases h with
  | whole _ h hne =>
    obtain ⟨c, rest, rfl⟩ := List.exists_cons_of_ne_nil hne
    exact ⟨c, rest, rfl, Or.inl (List.all_eq_true.1 h c List.mem_cons_self)⟩
  | pointed digits more h =>
    cases digits with
    | nil => exact ⟨'.', more, rfl, Or.inr rfl⟩
    | cons c rest => exact ⟨c, rest ++ '.' :: more, rfl, Or.inl (List.all_eq_true.1 h c List.mem_cons_self)⟩

theorem isSome_readMagnitude? {cs : List Char} (h : Decimal cs) (negative : Bool) :
    (Number.readMagnitude? negative cs).isSome = true := by
  unfold Number.readMagnitude?
  cases h with
  | whole _ h hne =>
    have htake : cs.takeWhile Char.isDigit = cs := List.takeWhile_eq_self_iff.2 (List.all_eq_true.1 h)
    have hdrop : cs.dropWhile Char.isDigit = [] := List.dropWhile_eq_nil_iff.2 (List.all_eq_true.1 h)
    simp [htake, hdrop, hne, Number.readExponent?]
  | pointed digits more h hm hne =>
    have hpoint : Char.isDigit '.' = false := by decide
    have htake : (digits ++ '.' :: more).takeWhile Char.isDigit = digits := by
      rw [List.takeWhile_append_of_pos (List.all_eq_true.1 h), List.takeWhile_cons_of_neg (by simp [hpoint]),
        List.append_nil]
    have hdrop : (digits ++ '.' :: more).dropWhile Char.isDigit = '.' :: more := by
      rw [List.dropWhile_append_of_pos (List.all_eq_true.1 h), List.dropWhile_cons_of_neg (by simp [hpoint])]
    have hmore : more.takeWhile Char.isDigit = more := List.takeWhile_eq_self_iff.2 (List.all_eq_true.1 hm)
    have hrest : more.dropWhile Char.isDigit = [] := List.dropWhile_eq_nil_iff.2 (List.all_eq_true.1 hm)
    simp only [htake, hdrop, hmore, hrest]
    simpa [Number.readExponent?] using hne

/-- digits and points are the same in small letters -/
theorem toLower_of_isDigit {c : Char} (h : c.isDigit = true ∨ c = '.') : c.toLower = c := by
  rcases h with h | rfl
  · unfold Char.toLower
    rw [dif_neg]
    rintro ⟨hA, -⟩
    simp only [Char.isDigit, Bool.and_eq_true, decide_eq_true_eq] at h
    exact absurd (UInt32.le_trans hA h.2) (by decide)
  · rfl

/-- a text that starts with a digit or a point is no name, in letters of any case -/
theorem lower_ne_name {c d : Char} (hc : c.isDigit = true ∨ c = '.') (hd : d.isDigit = false ∧ d ≠ '.')
    (rest name : List Char) :
    (String.ofList ((c :: rest).map Char.toLower) == String.ofList (d :: name)) = false := by
  refine Bool.eq_false_iff.2 fun he => ?_
  have hl := String.ofList_injective (beq_iff_eq.1 he)
  rw [List.map_cons, toLower_of_isDigit hc] at hl
  obtain ⟨rfl, -⟩ := List.cons.inj hl
  rcases hc with hc | hc
  · rw [hd.1] at hc; cases hc
  · exact hd.2 hc

/-- **Every decimal is read as a number without a sign.** -/
theorem unsigned_of_read? {cs : List Char} (h : Decimal cs) :
    ∃ x, Number.read? (String.ofList cs) = some x ∧ Number.Unsigned x := by
  obtain ⟨x, hx⟩ := Option.isSome_iff_exists.1 (isSome_readMagnitude? h false)
  obtain ⟨c, rest, rfl, hc⟩ := h.head
  have hsign : Number.readSign (c :: rest) = (false, c :: rest) := by
    unfold Number.readSign
    split
    · next he => cases he; exact absurd hc (by decide)
    · next he => cases he; exact absurd hc (by decide)
    · rfl
  have hinf := lower_ne_name hc (d := 'i') (by decide) rest ['n', 'f']
  have hinfinity := lower_ne_name hc (d := 'i') (by decide) rest ['n', 'f', 'i', 'n', 'i', 't', 'y']
  have hnan := lower_ne_name hc (d := 'n') (by decide) rest ['a', 'n']
  refine ⟨x, ?_, Number.unsigned_of_readMagnitude? hx⟩
  unfold Number.read?
  rw [String.toList_ofList, hsign]
  simp only
  rw [if_neg, if_neg]
  · exact hx
  · exact Bool.eq_false_iff.1 hnan
  · rw [Bool.or_eq_true, not_or]
    exact ⟨Bool.eq_false_iff.1 hinf, Bool.eq_false_iff.1 hinfinity⟩

/-! ## Literals -/

open Generation

/-- a value as literals have it -/
def Value.IsLiteral : Value → Prop
  | .null => True
  | .bool _ => True
  | .number x => Number.Unsigned x
  | .string _ => True
  | _ => False

/-- the text stands for a value -/
def IsLiteral (raw : String) : Prop := ∃ v, literalValue? raw = some v ∧ v.IsLiteral

/-- what starts neither with a quote nor as a word is read as a number -/
theorem Decimal.isLiteral {cs : List Char} (h : Decimal cs) : IsLiteral (String.ofList cs) := by
  obtain ⟨x, hx, hu⟩ := unsigned_of_read? h
  obtain ⟨c, rest, rfl, hc⟩ := h.head
  unfold IsLiteral literalValue?
  split
  · exact ⟨_, rfl, trivial⟩
  · exact ⟨_, rfl, trivial⟩
  · exact ⟨_, rfl, trivial⟩
  · rw [String.toList_ofList]
    split
    · next he => cases he; exact absurd hc (by decide)
    · next he => cases he; exact absurd hc (by decide)
    · exact ⟨.number x, by rw [hx]; rfl, hu⟩

/-- the text between a quote and the same quote -/
def Enclosed (quote : Char) (raw : String) : Prop := ∃ cs, raw.toList = quote :: (cs ++ [quote])

theorem Enclosed.isLiteral {quote : Char} (hq : quote = '"' ∨ quote = '\'') {raw : String} (h : Enclosed quote raw) :
    IsLiteral raw := by
  obtain ⟨cs, hcs⟩ := h
  unfold IsLiteral literalValue?
  split
  · exact ⟨_, rfl, trivial⟩
  · exact ⟨_, rfl, trivial⟩
  · exact ⟨_, rfl, trivial⟩
  · rw [hcs]
    have hs : ∃ v, (unquote? quote (cs ++ [quote])).map (fun cs => Value.string (String.ofList (unescape cs))) = some v ∧
        v.IsLiteral := ⟨.string (String.ofList (unescape cs)), by simp [unquote?], trivial⟩
    rcases hq with rfl | rfl <;> exact hs

/-- the words that stand for values -/
theorem isLiteral_word {raw : String} (h : raw = "true" ∨ raw = "false" ∨ raw = "null") : IsLiteral raw := by
  rcases h with rfl | rfl | rfl <;> exact ⟨_, rfl, trivial⟩

/-! ## Tokens -/

/-- a name as the lexemes of a source are -/
def IsWord (s : String) : Prop :=
  ∃ c cs, s.toList = c :: cs ∧ isWordStart c = true ∧ cs.all isWordPart = true

instance (s : String) : Decidable (IsWord s) :=
  match h : s.toList with
  | [] => .isFalse fun ⟨_, _, hs, _⟩ => nomatch h.symm.trans hs
  | c :: cs =>
    if hw : isWordStart c = true ∧ cs.all isWordPart = true then .isTrue ⟨c, cs, h, hw⟩
    else .isFalse fun ⟨_, _, hs, hw'⟩ => by cases h.symm.trans hs; exact hw hw'

/-- the lexeme of a name is a word -/
theorem isWord_firstLexeme {c : Char} {cs : List Char} (h : (firstLexeme c cs).1 = .alphanumeric) :
    IsWord (String.ofList (firstLexeme c cs).2.1) := by
  unfold firstLexeme at h ⊢
  split
  · next hw => exact ⟨c, cs.takeWhile isWordPart, String.toList_ofList, hw, List.all_takeWhile⟩
  · next hw =>
    rw [if_neg hw] at h
    repeat' split at h
    all_goals cases h

/-- a token that is a number stands for a value, and one that is a name is a word -/
structure Token.Readable (t : Token) : Prop where
  numeric : t.category = .numeric → IsLiteral t.text
  word : t.category = .alphanumeric → IsWord t.text

theorem readable_endOfInput (p : Position) : (Token.endOfInput p).Readable := ⟨nofun, nofun⟩

/-- **The numbers of a source have values, and its names are words.** -/
theorem readable_tokensFrom (p : Position) (cs : List Char) : ∀ t ∈ tokensFrom p cs, t.Readable := by
  fun_induction tokensFrom p cs with
  | case1 p => exact List.forall_mem_nil _
  | case2 p c cs lexeme ih =>
    intro t ht
    rcases List.mem_cons.1 ht with rfl | ht
    · exact ⟨fun hk => (decimal_firstLexeme hk).isLiteral, isWord_firstLexeme⟩
    · exact ih t ht

end TemplateView
