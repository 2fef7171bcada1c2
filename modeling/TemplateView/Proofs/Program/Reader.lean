/-
A reader for the expressions of program texts. It goes through a text from the left: a mark, a word or a numeral tells what
an expression is, and behind it come suffixes as long as there are any. The reader is a measure for the texts and not a part
of the program: what it gives for the text of an expression is shown in `Program/Readback`.

The fuel is what is left of the text, several times over; each call takes one.
-/
import TemplateView.Proofs.Grammar.Literals
import TemplateView.Proofs.Grammar.Quoted
import TemplateView.Proofs.Value.Numerals

namespace TemplateView

namespace Expr

/-! ## Reading -/

open Classical in
/-- what a word or a numeral stands for on its own; a numeral stands for the number whose text it is -/
noncomputable def ofWord (w : String) : Expr :=
  if w = "model" then .modelRoot
  else if w = "null" then .constant .null
  else if w = "true" then .constant (.bool true)
  else if w = "false" then .constant (.bool false)
  else if h : ∃ x, Number.Unsigned x ∧ Value.numberText x = w then .constant (.number h.choose)
  else .local w

/-- a call of a method, or of a helper -/
def callOf (target : Expr) (name : String) (arguments : List Expr) : Expr :=
  match target with
  | .local r => if r = "helpers" then .callHelper name arguments else .callMethod (.local r) name arguments
  | _ => .callMethod target name arguments

/-- a word and what follows it -/
def cutWord (cs : List Char) : String × List Char :=
  (String.ofList (cs.takeWhile isWordPart), cs.dropWhile isWordPart)

/-- a numeral and what follows it; a point belongs to it if a digit is behind the point -/
def cutNumeral (cs : List Char) : String × List Char :=
  let whole := cs.takeWhile Char.isDigit
  match cs.dropWhile Char.isDigit with
  | '.' :: more =>
    if startsWithDigit more then
      (String.ofList (whole ++ '.' :: more.takeWhile Char.isDigit), more.dropWhile Char.isDigit)
    else (String.ofList whole, '.' :: more)
  | rest => (String.ofList whole, rest)

/-- the inside of a string behind its opening quote, and what follows the closing one -/
def untilQuote : List Char → Option (List Char × List Char)
  | [] => none
  | '"' :: cs => some ([], cs)
  | '\\' :: c :: cs => (untilQuote cs).map fun (raw, rest) => ('\\' :: c :: raw, rest)
  | c :: cs => (untilQuote cs).map fun (raw, rest) => (c :: raw, rest)

/-- the operator between two operands in parentheses, none for the sign of a conditional, and what follows it -/
def cutOperator (cs : List Char) : Option BinaryOperator × List Char :=
  (BinaryOperator.ofText? (String.ofList ((cs.drop 1).takeWhile (· != ' '))), ((cs.drop 1).dropWhile (· != ' ')).drop 1)

mutual

/-- the expression that a text starts with, and what follows it -/
noncomputable def read : Nat → List Char → Option (Expr × List Char)
  | 0, _ => none
  | _ + 1, [] => none
  | n + 1, c :: cs =>
    if c.isDigit then
      let (numeral, rest) := cutNumeral (c :: cs)
      Expr.readWord n numeral rest
    else if isWordStart c then
      let (word, rest) := cutWord (c :: cs)
      Expr.readWord n word rest
    else Expr.readMark n c cs

/-- the expression that starts with a word or a numeral -/
noncomputable def readWord : Nat → String → List Char → Option (Expr × List Char)
  | 0, _, _ => none
  | n + 1, word, cs =>
    match cs with
    | '+' :: '+' :: cs => Expr.readSuffixes n (.update word .increment .after) cs
    | '-' :: '-' :: cs => Expr.readSuffixes n (.update word .decrement .after) cs
    | ' ' :: '=' :: ' ' :: cs => do
      let (value, rest) ← Expr.read n cs
      return (.assign word value, rest)
    | ' ' :: cs =>
      match if word = "new" then Expr.read n cs else none with
      | some (operand, rest) => some (.unary .new operand, rest)
      | none => Expr.readSuffixes n (.ofWord word) (' ' :: cs)
    | cs => Expr.readSuffixes n (.ofWord word) cs

/-- the expression that starts with a mark -/
noncomputable def readMark : Nat → Char → List Char → Option (Expr × List Char)
  | 0, _, _ => none
  | n + 1, mark, cs =>
    match mark, cs with
    | '!', cs => do
      let (operand, rest) ← Expr.read n cs
      return (.unary .not operand, rest)
    | '+', '+' :: cs =>
      let (word, rest) := cutWord cs
      Expr.readSuffixes n (.update word .increment .before) rest
    | '-', '-' :: cs =>
      let (word, rest) := cutWord cs
      Expr.readSuffixes n (.update word .decrement .before) rest
    | '-', cs => do
      let (operand, rest) ← Expr.read n cs
      return (.unary .negate operand, rest)
    | '"', cs => do
      let (raw, rest) ← untilQuote cs
      Expr.readSuffixes n (.constant (.string (String.ofList (Generation.unescape raw)))) rest
    | '[', cs => do
      let (items, rest) ← Expr.readItems n ']' cs
      Expr.readSuffixes n (.array items) rest
    | '(', cs => do
      let (first, rest) ← Expr.read n cs
      let (operator, rest) := cutOperator rest
      let (second, rest) ← Expr.read n rest
      match operator with
      | some op => Expr.readSuffixes n (.binary first op second) (rest.drop 1)
      | none => do
        let (third, rest) ← Expr.read n (rest.drop 3)
        Expr.readSuffixes n (.conditional first second third) (rest.drop 1)
    | _, _ => none

/-- an expression with the suffixes that follow it -/
noncomputable def readSuffixes : Nat → Expr → List Char → Option (Expr × List Char)
  | 0, _, _ => none
  | n + 1, target, cs =>
    match cs with
    | '.' :: cs =>
      let (name, rest) := cutWord cs
      match rest with
      | '(' :: rest => do
        let (arguments, rest) ← Expr.readItems n ')' rest
        Expr.readSuffixes n (.callOf target name arguments) rest
      | rest => Expr.readSuffixes n (.member target name) rest
    | '[' :: cs => do
      let (key, rest) ← Expr.read n cs
      Expr.readSuffixes n (.index target key) (rest.drop 1)
    | cs => some (target, cs)

/-- items up to a closing mark -/
noncomputable def readItems : Nat → Char → List Char → Option (List Expr × List Char)
  | 0, _, _ => none
  | n + 1, close, cs =>
    match Expr.read n cs with
    | none => if cs.head? = some close then some ([], cs.drop 1) else none
    | some (item, ',' :: rest) => do
      let (items, rest) ← Expr.readItems n close (rest.drop 1)
      return (item :: items, rest)
    | some (item, rest) => some ([item], rest.drop 1)

end

/-! ## Steps -/

section

variable {n : Nat} {cs rest : List Char} {e : Expr}

theorem readWord_assign (word : String) (h : Expr.read n cs = some (e, rest)) :
    Expr.readWord (n + 1) word (' ' :: '=' :: ' ' :: cs) = some (.assign word e, rest) := by
  show (Expr.read n cs).bind _ = _
  rw [h]
  rfl

theorem readMark_not (h : Expr.read n cs = some (e, rest)) :
    Expr.readMark (n + 1) '!' cs = some (.unary .not e, rest) := by
  show (Expr.read n cs).bind _ = _
  rw [h]
  rfl

/-- a minus sign that is not the first of two -/
theorem readMark_negate (hc : cs.head? ≠ some '-') (h : Expr.read n cs = some (e, rest)) :
    Expr.readMark (n + 1) '-' cs = some (.unary .negate e, rest) := by
  have hread : Expr.readMark (n + 1) '-' cs = (Expr.read n cs).bind fun r => some (.unary .negate r.1, r.2) := by
    unfold Expr.readMark
    split
    case h_3 => exact absurd rfl hc
    case h_4 => rfl
    case h_8 hminus _ _ _ _ _ => exact absurd rfl hminus
    all_goals next hm => cases hm
  rw [hread, h]
  rfl

theorem readMark_increment (n : Nat) (cs : List Char) : Expr.readMark (n + 1) '+' ('+' :: cs) =
    Expr.readSuffixes n (.update (cutWord cs).1 .increment .before) (cutWord cs).2 := rfl

theorem readMark_decrement (n : Nat) (cs : List Char) : Expr.readMark (n + 1) '-' ('-' :: cs) =
    Expr.readSuffixes n (.update (cutWord cs).1 .decrement .before) (cutWord cs).2 := rfl

theorem readMark_string {raw : List Char} (n : Nat) (h : untilQuote cs = some (raw, rest)) :
    Expr.readMark (n + 1) '"' cs =
      Expr.readSuffixes n (.constant (.string (String.ofList (Generation.unescape raw)))) rest := by
  show (untilQuote cs).bind _ = _
  rw [h]
  rfl

theorem readMark_array {items : List Expr} (h : Expr.readItems n ']' cs = some (items, rest)) :
    Expr.readMark (n + 1) '[' cs = Expr.readSuffixes n (.array items) rest := by
  show (Expr.readItems n ']' cs).bind _ = _
  rw [h]
  rfl

/-- behind its first operand, what is between parentheses is known by the operator -/
theorem readMark_parenthesis (h : Expr.read n cs = some (e, rest)) :
    Expr.readMark (n + 1) '(' cs = (Expr.read n (cutOperator rest).2).bind fun r =>
      match (cutOperator rest).1 with
      | some op => Expr.readSuffixes n (.binary e op r.1) (r.2.drop 1)
      | none => (Expr.read n (r.2.drop 3)).bind fun r' =>
        Expr.readSuffixes n (.conditional e r.1 r'.1) (r'.2.drop 1) := by
  show (Expr.read n cs).bind _ = _
  rw [h]
  rfl

theorem readSuffixes_index (target : Expr) (h : Expr.read n cs = some (e, rest)) :
    Expr.readSuffixes (n + 1) target ('[' :: cs) = Expr.readSuffixes n (.index target e) (rest.drop 1) := by
  show (Expr.read n cs).bind _ = _
  rw [h]
  rfl

end

/-! ## What follows an expression -/

/-- what stands behind a whole expression in a text: nothing, a mark, or a space with neither the sign of an assignment nor
an expression behind it -/
inductive Stops : List Char → Prop
  | nil : Stops []
  | mark {c : Char} (h : c ∈ [')', ']', ',']) (cs : List Char) : Stops (c :: cs)
  | space {cs : List Char} (h : ¬ ['=', ' '] <+: cs) (hr : ∀ n, Expr.read n cs = none) : Stops (' ' :: cs)

/-- what stands behind an expression that may have more suffixes -/
inductive Follows : List Char → Prop
  | stops {cs : List Char} (h : Stops cs) : Follows cs
  | point {c : Char} (h : isWordStart c = true) (cs : List Char) : Follows ('.' :: c :: cs)
  | bracket (cs : List Char) : Follows ('[' :: cs)

/-- no part of a word is next -/
def EndsWord (cs : List Char) : Prop := cs.takeWhile isWordPart = [] ∧ cs.dropWhile isWordPart = cs

theorem mem_closers {c : Char} (h : c ∈ [')', ']', ',']) : c = ')' ∨ c = ']' ∨ c = ',' := by simpa using h

theorem Stops.readSuffixes {ds : List Char} (h : Stops ds) (n : Nat) (e : Expr) :
    Expr.readSuffixes (n + 1) e ds = some (e, ds) := by
  cases h with
  | nil => rfl
  | mark h cs => obtain rfl | rfl | rfl := mem_closers h <;> rfl
  | space h => rfl

theorem Follows.endsWord {ds : List Char} (h : Follows ds) : EndsWord ds := by
  cases h with
  | stops h =>
    cases h with
    | nil => exact ⟨rfl, rfl⟩
    | mark h cs => obtain rfl | rfl | rfl := mem_closers h <;> exact ⟨rfl, rfl⟩
    | space h => exact ⟨rfl, rfl⟩
  | point h cs => exact ⟨rfl, rfl⟩
  | bracket cs => exact ⟨rfl, rfl⟩

/-! ## Words -/

/-- a word is cut off from what follows it -/
theorem cutWord_append {w : String} (h : IsWord w) {ds : List Char} (hd : EndsWord ds) :
    cutWord (w.toList ++ ds) = (w, ds) := by
  obtain ⟨c, cs, hw, hc, hcs⟩ := h
  have hall : ∀ d ∈ w.toList, isWordPart d = true := by
    rw [hw, List.forall_mem_cons]
    exact ⟨isWordPart_of_isWordStart hc, List.all_eq_true.1 hcs⟩
  rw [cutWord, List.takeWhile_append_of_pos hall, List.dropWhile_append_of_pos hall, hd.1, hd.2, List.append_nil,
    String.ofList_toList]

theorem read_word_append {w : String} (h : IsWord w) {ds : List Char} (hd : EndsWord ds) (n : Nat) :
    Expr.read (n + 1) (w.toList ++ ds) = Expr.readWord n w ds := by
  have hcut := cutWord_append h hd
  obtain ⟨c, cs, hw, hc, hcs⟩ := h
  rw [hw, List.cons_append] at hcut ⊢
  rw [Expr.read, if_neg (by rw [isDigit_of_isWordStart hc]; exact Bool.false_ne_true), if_pos hc, hcut]

theorem readWord_atom (w : String) {ds : List Char} (hd : Follows ds) (n : Nat) :
    Expr.readWord (n + 1) w ds = Expr.readSuffixes n (.ofWord w) ds := by
  cases hd with
  | stops hs =>
    cases hs with
    | nil => rfl
    | mark h cs => obtain rfl | rfl | rfl := mem_closers h <;> rfl
    | @space cs h hr =>
      unfold Expr.readWord
      split
      · next he => cases he
      · next he => cases he
      · next rest he => cases he; exact absurd ⟨rest, rfl⟩ h
      · next rest _ he =>
        obtain rfl : cs = rest := (List.cons.inj he).2
        rw [hr, ite_self]
      · rfl
  | point h cs => rfl
  | bracket cs => rfl

/-- no expression starts with the sign of an assignment -/
theorem read_equals (n : Nat) (cs : List Char) : Expr.read n ('=' :: cs) = none := by
  rcases n with - | - | n <;> rfl

theorem readWord_new {n : Nat} {cs rest : List Char} {operand : Expr} (h : Expr.read n cs = some (operand, rest)) :
    Expr.readWord (n + 1) "new" (' ' :: cs) = some (.unary .new operand, rest) := by
  unfold Expr.readWord
  split
  · next he => cases he
  · next he => cases he
  · next he =>
    cases he
    cases (read_equals ..).symm.trans h
  · next he =>
    cases he
    rw [if_pos rfl, h]
  · next he => exact absurd rfl (he _)

theorem untilQuote_quote (cs ds : List Char) :
    untilQuote (cs.flatMap quoteChar ++ '"' :: ds) = some (cs.flatMap quoteChar, ds) := by
  induction cs with
  | nil => rfl
  | cons c cs ih =>
    rw [List.flatMap_cons, List.append_assoc]
    rcases quoteChar_cases c with ⟨hb, hq, hc⟩ | ⟨e, hc, -⟩
    · rw [hc, List.singleton_append, untilQuote, ih]
      · rfl
      · exact hq
      · exact fun _ _ h => absurd h hb
    · rw [hc, List.cons_append, List.singleton_append, untilQuote, ih]
      rfl

/-! ## Numerals -/

/-- no digit is next -/
def EndsDigits (cs : List Char) : Prop := cs.takeWhile Char.isDigit = [] ∧ cs.dropWhile Char.isDigit = cs

theorem Follows.endsDigits {ds : List Char} (h : Follows ds) : EndsDigits ds := by
  cases h with
  | stops h =>
    cases h with
    | nil => exact ⟨rfl, rfl⟩
    | mark h cs => obtain rfl | rfl | rfl := mem_closers h <;> exact ⟨rfl, rfl⟩
    | space h => exact ⟨rfl, rfl⟩
  | point h cs => exact ⟨rfl, rfl⟩
  | bracket cs => exact ⟨rfl, rfl⟩

theorem cutDigits_append {digits ds : List Char} (h : ∀ c ∈ digits, c.isDigit = true) (hd : EndsDigits ds) :
    (digits ++ ds).takeWhile Char.isDigit = digits ∧ (digits ++ ds).dropWhile Char.isDigit = ds := by
  rw [List.takeWhile_append_of_pos h, List.dropWhile_append_of_pos h, hd.1, hd.2, List.append_nil]
  exact ⟨rfl, rfl⟩

/-- a numeral is cut off from what follows it -/
theorem cutNumeral_append {cs ds : List Char} (h : Number.Numeral cs) (hd : Follows ds) :
    cutNumeral (cs ++ ds) = (String.ofList cs, ds) := by
  cases h with
  | whole h hne =>
    obtain ⟨ht, hr⟩ := cutDigits_append h hd.endsDigits
    simp only [cutNumeral, ht, hr]
    cases hd with
    | stops hs =>
      cases hs with
      | nil => rfl
      | mark h cs => obtain rfl | rfl | rfl := mem_closers h <;> rfl
      | space h => rfl
    | point h cs => exact if_neg (by rw [startsWithDigit, isDigit_of_isWordStart h]; exact Bool.false_ne_true)
    | bracket cs => rfl
  | @pointed digits more h hne hm hme =>
    have hpoint : EndsDigits ('.' :: more ++ ds) := ⟨rfl, rfl⟩
    obtain ⟨ht, hr⟩ := cutDigits_append h hpoint
    obtain ⟨htm, hrm⟩ := cutDigits_append hm hd.endsDigits
    have hs : startsWithDigit (more ++ ds) = true := by
      obtain ⟨c, rest, rfl⟩ := List.exists_cons_of_ne_nil hme
      exact hm c List.mem_cons_self
    rw [List.append_assoc, List.cons_append] at *
    simp only [cutNumeral, ht, hr, htm, hrm, if_pos hs]

theorem read_numeral_append {s : String} (h : Number.Numeral s.toList) {ds : List Char} (hd : Follows ds) (n : Nat) :
    Expr.read (n + 1) (s.toList ++ ds) = Expr.readWord n s ds := by
  have hcut := cutNumeral_append h hd
  rw [String.ofList_toList] at hcut
  obtain ⟨c, cs, hs, hc⟩ := h.head
  rw [hs, List.cons_append] at hcut ⊢
  rw [Expr.read, if_pos hc, hcut]

end Expr

end TemplateView
