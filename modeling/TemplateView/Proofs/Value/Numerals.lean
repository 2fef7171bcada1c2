/-
Numbers as text. Plain text shows a number as a numeral, digits with at most one point among them, and the value of the
numeral is rounded to the number (`Value.numeral_numberText`): the text of a number without a sign determines it, the name
of the infinity included (`Value.eq_of_numberText`).
-/
import Mathlib.Algebra.Order.Field.Power
import Mathlib.Algebra.Order.Ring.Rat
import Mathlib.Data.List.TakeWhile
import Mathlib.Data.Nat.Cast.Field
import Mathlib.Data.Rat.Cast.Order
import Mathlib.Tactic.FieldSimp
import Mathlib.Tactic.Linarith
import Mathlib.Tactic.Positivity
import Mathlib.Tactic.Ring
import TemplateView.Proofs.Number.Shortest
import TemplateView.Proofs.Number.Unsigned
import TemplateView.Value

namespace TemplateView

namespace Number

/-! ## Numerals -/

/-- digits, and a point with more digits behind it -/
inductive Numeral : List Char → Prop
  | whole {digits : List Char} (h : ∀ c ∈ digits, c.isDigit = true) (hne : digits ≠ []) : Numeral digits
  | pointed {digits more : List Char} (h : ∀ c ∈ digits, c.isDigit = true) (hne : digits ≠ [])
      (hm : ∀ c ∈ more, c.isDigit = true) (hme : more ≠ []) : Numeral (digits ++ '.' :: more)

theorem Numeral.head {cs : List Char} (h : Numeral cs) : ∃ c rest, cs = c :: rest ∧ c.isDigit = true := by
  cases h with
  | whole h hne =>
    obtain ⟨c, rest, rfl⟩ := List.exists_cons_of_ne_nil hne
    exact ⟨c, rest, rfl, h c List.mem_cons_self⟩
  | @pointed digits more h hne hm hme =>
    obtain ⟨c, rest, rfl⟩ := List.exists_cons_of_ne_nil hne
    exact ⟨c, rest ++ '.' :: more, rfl, h c List.mem_cons_self⟩

/-- the value of a numeral: its digits as a whole number, with as many behind the point as there are -/
def numeralValue (cs : List Char) : ℚ :=
  Nat.ofDigitChars 10 (cs.filter Char.isDigit) 0 / 10 ^ ((cs.dropWhile (· != '.')).length - 1)

theorem bne_point_of_isDigit {c : Char} (h : c.isDigit = true) : (c != '.') = true := by
  rw [bne_iff_ne]
  rintro rfl
  exact absurd h (by decide)

theorem numeralValue_whole {digits : List Char} (h : ∀ c ∈ digits, c.isDigit = true) :
    numeralValue digits = Nat.ofDigitChars 10 digits 0 := by
  have hd : digits.dropWhile (· != '.') = [] := List.dropWhile_eq_nil_iff.2 fun c hc => bne_point_of_isDigit (h c hc)
  rw [numeralValue, hd, List.filter_eq_self.2 h]
  simp

theorem numeralValue_pointed {digits more : List Char} (h : ∀ c ∈ digits, c.isDigit = true)
    (hm : ∀ c ∈ more, c.isDigit = true) :
    numeralValue (digits ++ '.' :: more) = Nat.ofDigitChars 10 (digits ++ more) 0 / 10 ^ more.length := by
  have hd : (digits ++ '.' :: more).dropWhile (· != '.') = '.' :: more := by
    rw [List.dropWhile_append_of_pos fun c hc => bne_point_of_isDigit (h c hc)]
    rfl
  have hf : (digits ++ '.' :: more).filter Char.isDigit = digits ++ more := by
    rw [List.filter_append, List.filter_cons_of_neg (by decide), List.filter_eq_self.2 h, List.filter_eq_self.2 hm]
  rw [numeralValue, hd, hf]
  rfl

/-! ## Layout -/

theorem isDigit_zeros (n : Nat) : ∀ c ∈ zeros n, c.isDigit = true := by
  intro c hc
  rw [List.eq_of_mem_replicate hc]
  rfl

theorem isDigit_append {a b : List Char} (ha : ∀ c ∈ a, c.isDigit = true) (hb : ∀ c ∈ b, c.isDigit = true) :
    ∀ c ∈ a ++ b, c.isDigit = true :=
  List.forall_mem_append.2 ⟨ha, hb⟩

theorem div_pow_eq_mul_zpow (q : ℚ) {n : Nat} {k : Int} (h : k = -(n : Int)) : q / 10 ^ n = q * 10 ^ k := by
  rw [h, zpow_neg, zpow_natCast, div_eq_mul_inv]

/-- **Digits laid out with a point are a numeral of their value.** -/
theorem numeral_positionalText {digits : List Char} (h : ∀ c ∈ digits, c.isDigit = true) (hne : digits ≠ []) (k : Int) :
    Numeral (positionalText plain digits (digits.length + k)) ∧
      numeralValue (positionalText plain digits (digits.length + k)) = Nat.ofDigitChars 10 digits 0 * 10 ^ k := by
  have hlen := List.length_pos_iff.2 hne
  unfold positionalText
  split_ifs with hp hq
  · -- the point stands before all digits
    have hz := isDigit_append (isDigit_zeros (-(digits.length + k)).toNat) h
    have hs : ['0', '.'] ++ zeros (-(digits.length + k)).toNat ++ digits =
        ['0'] ++ '.' :: (zeros (-(digits.length + k)).toNat ++ digits) := by simp
    have hzero : Nat.ofDigitChars 10 ['0'] 0 = 0 := rfl
    rw [hs]
    refine ⟨.pointed (by simp) (by simp) hz (by simp [hne]), ?_⟩
    rw [numeralValue_pointed (by simp) hz, Nat.ofDigitChars_append, Nat.ofDigitChars_append, zeros,
      Nat.ofDigitChars_replicate_zero, hzero, Nat.mul_zero]
    exact div_pow_eq_mul_zpow _ (by rw [List.length_append, List.length_replicate]; omega)
  · -- the point stands between digits
    have htake : ∀ c ∈ digits.take (digits.length + k).toNat, c.isDigit = true := fun c hc => h c (List.mem_of_mem_take hc)
    have hdrop : ∀ c ∈ digits.drop (digits.length + k).toNat, c.isDigit = true := fun c hc => h c (List.mem_of_mem_drop hc)
    rw [List.append_assoc, List.singleton_append]
    refine ⟨.pointed htake ?_ hdrop ?_, ?_⟩
    · rw [← List.length_pos_iff, List.length_take]
      omega
    · rw [← List.length_pos_iff, List.length_drop]
      omega
    · rw [numeralValue_pointed htake hdrop, List.take_append_drop]
      exact div_pow_eq_mul_zpow _ (by rw [List.length_drop]; omega)
  · -- no digit stands behind the point
    obtain ⟨n, rfl⟩ := Int.eq_ofNat_of_zero_le (show 0 ≤ k by omega)
    have hd := isDigit_append h (isDigit_zeros ((digits.length + n : Int).toNat - digits.length))
    have hn : (digits.length + n : Int).toNat - digits.length = n := by omega
    show Numeral (_ ++ []) ∧ numeralValue (_ ++ []) = _
    rw [List.append_nil]
    refine ⟨.whole hd (by simp [hne]), ?_⟩
    rw [numeralValue_whole hd, hn, Nat.ofDigitChars_append, zeros, Nat.ofDigitChars_replicate_zero, zpow_natCast]
    push_cast
    ring

/-- the digits of a whole number -/
theorem numeral_toDigits (n : Nat) : Numeral (Nat.toDigits 10 n) ∧ numeralValue (Nat.toDigits 10 n) = n := by
  have hd : ∀ c ∈ Nat.toDigits 10 n, c.isDigit = true := fun c hc => Nat.isDigit_of_mem_toDigits (by decide) (by decide) hc
  refine ⟨.whole hd Nat.toDigits_ne_nil, ?_⟩
  rw [numeralValue_whole hd, Nat.ofDigitChars_ten_toDigits]

/-! ## Numbers as text -/

/-- what stands for a whole number is its value -/
theorem whole?_eq_some {x : Float} {m : Nat} {e n : Int} (h : exact x = .finite false m e) (hn : whole? x = some n) :
    ∃ k : Nat, n = k ∧ (k : ℚ) = m * 2 ^ e := by
  unfold whole? at hn
  rw [h] at hn
  split at hn
  · next he =>
    cases he
    cases hn
    exact ⟨m * Nat.pow 2 _, rfl, by push_cast [Nat.pow_eq]; simp⟩
  · next e' he =>
    cases he
    obtain ⟨hmod, hn⟩ := Option.ite_none_right_eq_some.1 hn
    cases hn
    refine ⟨m / Nat.pow 2 (e' + 1), rfl, ?_⟩
    rw [Nat.cast_div (Nat.dvd_of_mod_eq_zero hmod) (by simp)]
    push_cast [Nat.pow_eq, zpow_negSucc]
    rw [div_eq_mul_inv]
  · cases hn

end Number

open Number

theorem whole?_of_plainWhole? {x : Float} {n : Int} (h : plainWhole? x = some n) : whole? x = some n := by
  unfold plainWhole? at h
  split at h
  · next hs =>
    obtain ⟨-, hn⟩ := Option.ite_none_right_eq_some.1 h
    rw [hs, hn]
  · cases h

theorem magnitudeText_plain {m : Nat} (hm : m ≠ 0) (e : Int) : magnitudeText plain m e =
    positionalText plain (Nat.toDigits 10 (shortest .up m e).1)
      ((Nat.toDigits 10 (shortest .up m e).1).length + (shortest .up m e).2) := by
  unfold magnitudeText
  rw [if_neg hm]
  rfl

/-- **The text of a finite number is a numeral whose value is rounded to the number.** -/
theorem Value.numeral_numberText {x : Float} {m : Nat} {e : Int} (h : exact x = .finite false m e) :
    Numeral (numberText x).toList ∧
      (m = 0 ∧ numeralValue (numberText x).toList = 0 ∨ m ≠ 0 ∧ RoundsTo m e (numeralValue (numberText x).toList)) := by
  unfold numberText
  cases hw : plainWhole? x with
  | some n =>
    -- a whole number is written exactly
    obtain ⟨k, rfl, hk⟩ := whole?_eq_some h (whole?_of_plainWhole? hw)
    have htext : (toString (k : Int)).toList = Nat.toDigits 10 k := Nat.toList_repr
    obtain ⟨hn, hv⟩ := numeral_toDigits k
    simp only [htext, hv]
    refine ⟨hn, ?_⟩
    by_cases hm : m = 0
    · exact .inl ⟨hm, by rw [hk, hm, Nat.cast_zero, zero_mul]⟩
    · exact .inr ⟨hm, hk ▸ roundsTo_self m e⟩
  | none =>
    simp only [write, h, Bool.false_eq_true, if_false, List.nil_append, String.toList_ofList]
    by_cases hm : m = 0
    · rw [hm]
      obtain ⟨hn, hv⟩ := numeral_toDigits 0
      exact ⟨hn, .inl ⟨rfl, hv.trans Nat.cast_zero⟩⟩
    · have hd : ∀ c ∈ Nat.toDigits 10 (shortest .up m e).1, c.isDigit = true :=
        fun c hc => Nat.isDigit_of_mem_toDigits (by decide) (by decide) hc
      obtain ⟨hn, hv⟩ := numeral_positionalText hd Nat.toDigits_ne_nil (shortest .up m e).2
      rw [Nat.ofDigitChars_ten_toDigits] at hv
      rw [magnitudeText_plain hm e]
      refine ⟨hn, .inr ⟨hm, ?_⟩⟩
      rw [hv]
      exact roundsTo_shortest (canonical_of_exact h hm)

theorem Value.numberText_infinite {x : Float} (h : exact x = .infinite false) : numberText x = "Infinity" := by
  unfold numberText plainWhole? whole?
  rw [h]
  simp only [write, h]
  rfl

/-- the text of an unsigned number is a numeral or a name -/
theorem Value.numberText_cases {x : Float} (h : Unsigned x) :
    Numeral (numberText x).toList ∨ numberText x = "Infinity" := by
  rcases h with h | ⟨m, e, h⟩
  · exact .inr (numberText_infinite h)
  · exact .inl (numeral_numberText h).1

theorem not_numeral_infinity : ¬ Numeral "Infinity".toList := by
  intro h
  obtain ⟨c, cs, hc, hd⟩ := h.head
  cases hc
  cases hd

theorem not_roundsTo_zero {m : Nat} {e : Int} (hm : m ≠ 0) : ¬ RoundsTo m e 0 := by
  intro h
  have hp : (0 : ℚ) < 2 ^ (e - 2) := by positivity
  have hb : (quartersBelow m e : ℚ) ≤ 2 := by exact_mod_cast (quartersBelow_le m e).2
  have hm : (1 : ℚ) ≤ m := by exact_mod_cast Nat.one_le_iff_ne_zero.2 hm
  have hpos : (0 : ℚ) < (4 * m - quartersBelow m e) * 2 ^ (e - 2) := mul_pos (by linarith) hp
  rcases h.lower with hl | ⟨-, hl⟩ <;> linarith

/-- **The text of an unsigned number determines it.** -/
theorem Value.eq_of_numberText {x y : Float} (hx : Unsigned x) (hy : Unsigned y) (h : numberText x = numberText y) :
    x = y := by
  have hnan : ∀ {z}, Unsigned z → exact z ≠ .nan := by
    rintro z (hz | ⟨m, e, hz⟩) <;> rw [hz] <;> exact nofun
  refine eq_of_exact (hnan hx) ?_
  rcases hx with hx | ⟨m, e, hx⟩ <;> rcases hy with hy | ⟨m', e', hy⟩
  · rw [hx, hy]
  · have hn := (Value.numeral_numberText hy).1
    rw [← h, Value.numberText_infinite hx] at hn
    exact absurd hn not_numeral_infinity
  · have hn := (Value.numeral_numberText hx).1
    rw [h, Value.numberText_infinite hy] at hn
    exact absurd hn not_numeral_infinity
  · have hvx := (Value.numeral_numberText hx).2
    have hvy := (Value.numeral_numberText hy).2
    rw [h] at hvx
    rcases hvx with ⟨rfl, hvx⟩ | ⟨hm, hvx⟩ <;> rcases hvy with ⟨rfl, hvy⟩ | ⟨hm', hvy⟩
    · rw [hx, hy, exponent_of_zero hx, exponent_of_zero hy]
    · exact absurd (hvx ▸ hvy) (not_roundsTo_zero hm')
    · exact absurd (hvy ▸ hvx) (not_roundsTo_zero hm)
    · obtain ⟨rfl, rfl⟩ := roundsTo_unique (canonical_of_exact hx hm) (canonical_of_exact hy hm') hvx hvy
      rw [hx, hy]

end TemplateView
