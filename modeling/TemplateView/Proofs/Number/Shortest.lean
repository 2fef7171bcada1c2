/-
The shortest decimal of a number is rounded to that number and to no other. `RoundsTo` says of a decimal that it lies
between the middles to the neighbours of a number; one decimal does so for one number at most (`roundsTo_unique`). The
search for the shortest decimal goes down grids of decimals, and its last grid has a point between the middles
(`roundsTo_shortest`).
-/
import Mathlib.Algebra.Order.Field.Power
import Mathlib.Tactic.Linarith
import Mathlib.Tactic.Ring
import Mathlib.Tactic.FieldSimp
import Mathlib.Tactic.Positivity
import Mathlib.Data.Rat.Cast.Order
import Mathlib.Algebra.Order.Ring.Rat
import TemplateView.Number.Decimal
import TemplateView.Proofs.Number.Bits

namespace TemplateView.Number

/-! ## Rounding -/

/-- the quarters of a unit from a number down to the middle between it and the number below -/
def quartersBelow (m : Nat) (e : Int) : Nat := if m = 4503599627370496 && (-1074 : Int) < e then 1 else 2

/-- a decimal is rounded to `m · 2 ^ e`: it lies between the middles to the neighbours, which belong to an even mantissa -/
structure RoundsTo (m : Nat) (e : Int) (q : ℚ) : Prop where
  lower : (4 * m - quartersBelow m e : ℚ) * 2 ^ (e - 2) < q ∨ m % 2 = 0 ∧ (4 * m - quartersBelow m e : ℚ) * 2 ^ (e - 2) = q
  upper : q < (4 * m + 2 : ℚ) * 2 ^ (e - 2) ∨ m % 2 = 0 ∧ q = (4 * m + 2 : ℚ) * 2 ^ (e - 2)

theorem quartersBelow_le (m : Nat) (e : Int) : 1 ≤ quartersBelow m e ∧ quartersBelow m e ≤ 2 := by
  unfold quartersBelow
  split <;> decide

/-- the number itself -/
theorem roundsTo_self (m : Nat) (e : Int) : RoundsTo m e (m * 2 ^ e) := by
  have h2 : (2 : ℚ) ^ e = 4 * 2 ^ (e - 2) := by
    rw [zpow_sub₀ (by norm_num)]
    ring
  have hp : (0 : ℚ) < 2 ^ (e - 2) := by positivity
  have hb : (1 : ℚ) ≤ quartersBelow m e := by exact_mod_cast (quartersBelow_le m e).1
  refine ⟨.inl ?_, .inl ?_⟩ <;> rw [h2] <;> nlinarith

/-- of two numbers with one exponent, the middles do not overlap -/
theorem mantissa_le_of_roundsTo {m m' : Nat} {e : Int} {q : ℚ} (h : RoundsTo m e q) (h' : RoundsTo m' e q) : m' ≤ m := by
  by_contra hlt
  have hp : (0 : ℚ) < 2 ^ (e - 2) := by positivity
  have hm : (m : ℚ) + 1 ≤ m' := by exact_mod_cast Nat.lt_of_not_le hlt
  have hb : (quartersBelow m' e : ℚ) ≤ 2 := by exact_mod_cast (quartersBelow_le m' e).2
  have hle : (4 * m + 2 : ℚ) * 2 ^ (e - 2) ≤ (4 * m' - quartersBelow m' e : ℚ) * 2 ^ (e - 2) := by
    apply mul_le_mul_of_nonneg_right _ hp.le
    linarith
  rcases h.upper with hu | ⟨hmod, hu⟩
  · rcases h'.lower with hl | ⟨hmod', hl⟩ <;> linarith
  · rcases h'.lower with hl | ⟨hmod', hl⟩
    · linarith
    · have heq : (4 * m + 2 : ℚ) = 4 * m' - quartersBelow m' e := by
        rw [← hl] at hu
        exact (mul_right_cancel₀ hp.ne' hu).symm
      have : m' = m + 1 := by
        have : (4 * m' : ℚ) ≤ 4 * (m + 1) := by linarith
        have : 4 * m' ≤ 4 * (m + 1) := by exact_mod_cast this
        omega
      omega

/-- numbers with a smaller exponent are smaller, and so are the middles around them -/
theorem not_roundsTo_of_lt {m m' : Nat} {e e' : Int} (hc : Canonical m e) (hc' : Canonical m' e') (he : e < e') {q : ℚ}
    (h : RoundsTo m e q) (h' : RoundsTo m' e' q) : False := by
  have hlow := hc.low
  have hfull : 2 ^ 52 ≤ m' := hc'.full.resolve_left (by omega)
  have hlt := hc.lt
  have hp : (0 : ℚ) < 2 ^ (e - 2) := by positivity
  have hm : (m : ℚ) ≤ 2 ^ 53 - 1 := by
    have : m + 1 ≤ 2 ^ 53 := hlt
    have : (m : ℚ) + 1 ≤ 2 ^ 53 := by exact_mod_cast this
    linarith
  have hupper : q < (2 ^ 55 - 2) * 2 ^ (e - 2) := by
    rcases h.upper with hu | ⟨hmod, hu⟩
    · refine hu.trans_le (mul_le_mul_of_nonneg_right ?_ hp.le)
      linarith
    · have hne : m + 2 ≤ 2 ^ 53 := by omega
      have hne : (m : ℚ) + 2 ≤ 2 ^ 53 := by exact_mod_cast hne
      rw [hu]
      refine mul_lt_mul_of_pos_right ?_ hp
      linarith
  have hquarters : (2 ^ 54 - 1 : ℚ) ≤ 4 * m' - quartersBelow m' e' := by
    have hle := (quartersBelow_le m' e').2
    have hone : m' = 2 ^ 52 → quartersBelow m' e' = 1 := fun hm' => if_pos (by simp [hm']; omega)
    have hnat : 2 ^ 54 + quartersBelow m' e' ≤ 4 * m' + 1 := by
      by_cases hm' : m' = 2 ^ 52
      · rw [hone hm']
        omega
      · omega
    have : (2 ^ 54 : ℚ) + quartersBelow m' e' ≤ 4 * m' + 1 := by exact_mod_cast hnat
    linarith
  have hstep : (2 : ℚ) * 2 ^ (e - 2) ≤ 2 ^ (e' - 2) := by
    rw [← zpow_one_add₀ (by norm_num)]
    exact zpow_le_zpow_right₀ (by norm_num) (by omega)
  have hlower : (2 ^ 55 - 2 : ℚ) * 2 ^ (e - 2) ≤ (4 * m' - quartersBelow m' e') * 2 ^ (e' - 2) := by
    calc (2 ^ 55 - 2 : ℚ) * 2 ^ (e - 2) = (2 ^ 54 - 1) * (2 * 2 ^ (e - 2)) := by ring
      _ ≤ (2 ^ 54 - 1) * 2 ^ (e' - 2) := mul_le_mul_of_nonneg_left hstep (by norm_num)
      _ ≤ _ := mul_le_mul_of_nonneg_right hquarters (by positivity)
  rcases h'.lower with hl | ⟨-, hl⟩ <;> linarith

/-- **A decimal is rounded to one number.** -/
theorem roundsTo_unique {m m' : Nat} {e e' : Int} (hc : Canonical m e) (hc' : Canonical m' e') {q : ℚ}
    (h : RoundsTo m e q) (h' : RoundsTo m' e' q) : m = m' ∧ e = e' := by
  rcases lt_trichotomy e e' with he | rfl | he
  · exact (not_roundsTo_of_lt hc hc' he h h').elim
  · exact ⟨le_antisymm (mantissa_le_of_roundsTo h' h) (mantissa_le_of_roundsTo h h'), rfl⟩
  · exact (not_roundsTo_of_lt hc' hc he h' h).elim

/-! ## Grids -/

/-- the units of a grid, in whole numbers: the quarter of a unit, and the step -/
def gridScale (e k : Int) : Nat := Nat.pow 2 (e - 2).toNat * Nat.pow 10 (-k).toNat

def gridStep (e k : Int) : Nat := Nat.pow 2 (2 - e).toNat * Nat.pow 10 k.toNat

theorem pow_toNat {b : ℚ} (hb : b ≠ 0) (i : Int) : b ^ i.toNat = b ^ i * b ^ (-i).toNat := by
  rw [← zpow_natCast, ← zpow_natCast, ← zpow_add₀ hb]
  congr 1
  omega

theorem gridStep_pos (e k : Int) : 0 < gridStep e k :=
  Nat.mul_pos (Nat.pow_pos (by decide)) (Nat.pow_pos (by decide))

/-- both stand in the ratio that they should -/
theorem grid_ratio (e k : Int) : (gridScale e k : ℚ) * 10 ^ k = gridStep e k * 2 ^ (e - 2) := by
  have h2 := pow_toNat (b := 2) (by norm_num) (e - 2)
  have h10 := pow_toNat (b := 10) (by norm_num) k
  rw [neg_sub] at h2
  unfold gridScale gridStep
  push_cast [Nat.pow_eq]
  rw [h2, h10]
  ring

/-- multiples of the quarter of a unit beside those of the step -/
theorem grid_cmp (e k : Int) (a d : Nat) :
    (a * gridScale e k < d * gridStep e k ↔ (a : ℚ) * 2 ^ (e - 2) < d * 10 ^ k) ∧
      (d * gridStep e k < a * gridScale e k ↔ (d : ℚ) * 10 ^ k < a * 2 ^ (e - 2)) ∧
      (a * gridScale e k = d * gridStep e k ↔ (a : ℚ) * 2 ^ (e - 2) = d * 10 ^ k) := by
  have hpos : (0 : ℚ) < gridStep e k := by exact_mod_cast gridStep_pos e k
  have h10 : (0 : ℚ) < 10 ^ k := by positivity
  have ha : (a : ℚ) * gridScale e k * 10 ^ k = a * 2 ^ (e - 2) * gridStep e k := by
    rw [mul_assoc, grid_ratio]
    ring
  have hd : (d : ℚ) * gridStep e k * 10 ^ k = d * 10 ^ k * gridStep e k := by ring
  refine ⟨?_, ?_, ?_⟩
  · rw [← Nat.cast_lt (α := ℚ), Nat.cast_mul, Nat.cast_mul, ← mul_lt_mul_iff_left₀ h10, ha, hd, mul_lt_mul_iff_left₀ hpos]
  · rw [← Nat.cast_lt (α := ℚ), Nat.cast_mul, Nat.cast_mul, ← mul_lt_mul_iff_left₀ h10, ha, hd, mul_lt_mul_iff_left₀ hpos]
  · rw [← Nat.cast_inj (R := ℚ), Nat.cast_mul, Nat.cast_mul, ← mul_left_inj' h10.ne', ha, hd, mul_left_inj' hpos.ne']

/-- a point of the grid not above the number fits -/
def downFits (m : Nat) (e k : Int) : Bool :=
  let down := 4 * m * gridScale e k / gridStep e k
  let low := (4 * m - quartersBelow m e) * gridScale e k
  low < down * gridStep e k || (m % 2 == 0 && low == down * gridStep e k)

/-- the next point above it fits -/
def upFits (m : Nat) (e k : Int) : Bool :=
  let up := 4 * m * gridScale e k / gridStep e k + 1
  let high := (4 * m + 2) * gridScale e k
  up * gridStep e k < high || (m % 2 == 0 && up * gridStep e k == high)

/-- a grid gives a point that fits, if one of the two beside the number does -/
theorem onGrid?_cases (tie : Tie) (m : Nat) (e k : Int) :
    (downFits m e k = true ∧ onGrid? tie m e k = some (4 * m * gridScale e k / gridStep e k)) ∨
      (upFits m e k = true ∧ onGrid? tie m e k = some (4 * m * gridScale e k / gridStep e k + 1)) ∨
      (upFits m e k = false ∧ onGrid? tie m e k = none) := by
  let down := 4 * m * gridScale e k / gridStep e k
  let below := 4 * m * gridScale e k - down * gridStep e k
  let above := (down + 1) * gridStep e k - 4 * m * gridScale e k
  have heq : onGrid? tie m e k =
      if downFits m e k && upFits m e k then
        (if below < above then some down else if above < below then some (down + 1)
          else if tie = .even && down % 2 == 0 then some down else some (down + 1))
      else if downFits m e k then some down else if upFits m e k then some (down + 1) else none := rfl
  rw [heq]
  cases hd : downFits m e k <;> cases hu : upFits m e k
  · exact .inr (.inr ⟨rfl, rfl⟩)
  · exact .inr (.inl ⟨rfl, rfl⟩)
  · exact .inl ⟨rfl, rfl⟩
  · rw [Bool.and_self, if_pos rfl]
    split_ifs
    · exact .inl ⟨rfl, rfl⟩
    · exact .inr (.inl ⟨rfl, rfl⟩)
    · exact .inl ⟨rfl, rfl⟩
    · exact .inr (.inl ⟨rfl, rfl⟩)

theorem gridScale_pos (e k : Int) : 0 < gridScale e k :=
  Nat.mul_pos (Nat.pow_pos (by decide)) (Nat.pow_pos (by decide))

/-- which points of a grid are rounded to a number, in whole numbers -/
theorem roundsTo_grid {m : Nat} (hm : 0 < m) (e k : Int) (d : Nat) : RoundsTo m e (d * 10 ^ k) ↔
    ((4 * m - quartersBelow m e) * gridScale e k < d * gridStep e k ∨
        m % 2 = 0 ∧ (4 * m - quartersBelow m e) * gridScale e k = d * gridStep e k) ∧
      (d * gridStep e k < (4 * m + 2) * gridScale e k ∨ m % 2 = 0 ∧ d * gridStep e k = (4 * m + 2) * gridScale e k) := by
  have hsub : ((4 * m - quartersBelow m e : Nat) : ℚ) = 4 * m - quartersBelow m e := by
    rw [Nat.cast_sub (by have := (quartersBelow_le m e).2; omega)]
    push_cast
    rfl
  have hadd : ((4 * m + 2 : Nat) : ℚ) = 4 * m + 2 := by push_cast; rfl
  rw [(grid_cmp e k _ d).1, (grid_cmp e k _ d).2.2, (grid_cmp e k _ d).2.1, eq_comm (a := d * gridStep e k),
    (grid_cmp e k _ d).2.2, hsub, hadd]
  exact ⟨fun h => ⟨h.lower, h.upper.imp_right fun h => ⟨h.1, h.2.symm⟩⟩,
    fun h => ⟨h.1, h.2.imp_right fun h => ⟨h.1, h.2.symm⟩⟩⟩

/-- **What a grid gives is rounded to the number.** -/
theorem roundsTo_of_onGrid? {tie : Tie} {m : Nat} {e k : Int} {d : Nat} (hm : 0 < m) (h : onGrid? tie m e k = some d) :
    RoundsTo m e (d * 10 ^ k) := by
  rw [roundsTo_grid hm]
  have hscale := gridScale_pos e k
  have hdown := Nat.div_mul_le_self (4 * m * gridScale e k) (gridStep e k)
  have hup := Nat.lt_div_mul_add (a := 4 * m * gridScale e k) (gridStep_pos e k)
  have hq := (quartersBelow_le m e).1
  rcases onGrid?_cases tie m e k with ⟨hf, hd⟩ | ⟨hf, hd⟩ | ⟨-, hd⟩ <;> rw [hd] at h <;> cases h
  · refine ⟨by simpa [downFits] using hf, .inl (hdown.trans_lt ?_)⟩
    exact Nat.mul_lt_mul_of_pos_right (by omega) hscale
  · refine ⟨.inl ?_, by simpa [upFits] using hf⟩
    refine (Nat.mul_le_mul_right _ (Nat.sub_le _ _)).trans_lt ?_
    rw [Nat.add_mul, Nat.one_mul]
    exact hup

/-- a fine grid has a point that fits -/
theorem isSome_onGrid? (tie : Tie) (m : Nat) {e k : Int} (h : gridStep e k < 2 * gridScale e k) :
    (onGrid? tie m e k).isSome = true := by
  have hdown := Nat.div_mul_le_self (4 * m * gridScale e k) (gridStep e k)
  have hfits : upFits m e k = true := by
    simp only [upFits, Bool.or_eq_true, decide_eq_true_eq]
    left
    rw [Nat.add_mul, Nat.one_mul, Nat.add_mul]
    omega
  rcases onGrid?_cases tie m e k with ⟨-, hd⟩ | ⟨-, hd⟩ | ⟨hf, -⟩
  · rw [hd]
    rfl
  · rw [hd]
    rfl
  · rw [hfits] at hf
    cases hf

/-! ## The search -/

/-- a search that comes to a fine grid ends at a point that a grid gives -/
theorem onGrid?_search {tie : Tie} {m : Nat} {e : Int} (n : Nat) (k : Int)
    (h : ∃ i < n, (onGrid? tie m e (k - i)).isSome = true) :
    onGrid? tie m e (search tie m e n k).2 = some (search tie m e n k).1 := by
  induction n generalizing k with
  | zero =>
    obtain ⟨i, hi, -⟩ := h
    cases hi
  | succ n ih =>
    unfold search
    cases hk : onGrid? tie m e k with
    | some d => exact hk
    | none =>
      obtain ⟨i, hi, hs⟩ := h
      cases i with
      | zero =>
        rw [Nat.cast_zero, sub_zero, hk] at hs
        cases hs
      | succ i => exact ih (k - 1) ⟨i, by omega, by rw [← hs]; congr 2; push_cast; ring⟩

/-- a power of ten is below a power of two, if a bound on a power of the base and one on the exponents say so -/
theorem ten_zpow_lt {p q : Nat} {k e : Int} (hbase : ((10 : ℚ) ^ q) ^ k ≤ (2 ^ p) ^ k) (h : p * k < q * e) :
    (10 : ℚ) ^ k < 2 ^ e := by
  refine lt_of_pow_lt_pow_left₀ q (by positivity) ?_
  calc ((10 : ℚ) ^ k) ^ q = (10 ^ q) ^ k := by rw [← zpow_natCast, ← zpow_natCast, ← zpow_mul, ← zpow_mul, mul_comm]
    _ ≤ (2 ^ p) ^ k := hbase
    _ = 2 ^ (p * k) := by rw [zpow_mul, zpow_natCast]
    _ < 2 ^ (q * e) := zpow_lt_zpow_right₀ (by norm_num) h
    _ = (2 ^ e) ^ q := by rw [mul_comm, zpow_mul, zpow_natCast]

/-- the last grid of the search is fine enough for a mantissa of full size, and so is every grid below it -/
theorem gridStep_lt {e k : Int} (hlow : -1074 ≤ e) (hhigh : e ≤ 971)
    (hk : k ≤ Int.fdiv ((e + 53) * 30103) 100000 - 18) : gridStep e k < 2 * gridScale e k := by
  have hcmp := (grid_cmp e k 2 1).2.1
  have htwo : (2 : ℚ) * 2 ^ (e - 2) = 2 ^ (e - 1) := by
    rw [← zpow_one_add₀ (by norm_num)]
    congr 1
    omega
  rw [one_mul, Nat.cast_one, one_mul, Nat.cast_ofNat, htwo] at hcmp
  rw [hcmp]
  rw [Int.fdiv_eq_ediv_of_nonneg _ (by decide)] at hk
  -- the logarithm is bounded on the side that the sign of the exponent asks for
  rcases le_or_gt 0 k with hpos | hneg
  · have hbase : ((10 : ℚ) ^ 3) ^ k ≤ (2 ^ 10) ^ k := zpow_le_zpow_left₀ hpos (by norm_num) (by norm_num)
    refine ten_zpow_lt hbase ?_
    push_cast
    omega
  · have hbase : ((10 : ℚ) ^ 16) ^ k ≤ (2 ^ 53) ^ k := by
      have hinv : ((2 : ℚ) ^ 53) ^ (-k) ≤ (10 ^ 16) ^ (-k) :=
        zpow_le_zpow_left₀ (by omega) (by norm_num) (by norm_num)
      rw [zpow_neg, zpow_neg] at hinv
      exact (inv_le_inv₀ (by positivity) (by positivity)).1 hinv
    refine ten_zpow_lt hbase ?_
    push_cast
    omega

/-- **The shortest decimal is rounded to the number.** -/
theorem roundsTo_shortest {tie : Tie} {m : Nat} {e : Int} (hc : Canonical m e) :
    RoundsTo m e ((shortest tie m e).1 * 10 ^ (shortest tie m e).2) := by
  refine roundsTo_of_onGrid? hc.pos (onGrid?_search 20 _ ⟨19, by decide, isSome_onGrid? tie m ?_⟩)
  have hlow := hc.low
  have hhigh := hc.high
  have hsize : m.log2 ≤ 52 := by
    have := (Nat.log2_lt hc.pos.ne').2 hc.lt
    omega
  have hmono : Int.fdiv ((m.log2 + e + 1) * 30103) 100000 ≤ Int.fdiv ((e + 53) * 30103) 100000 := by
    rw [Int.fdiv_eq_ediv_of_nonneg _ (by decide), Int.fdiv_eq_ediv_of_nonneg _ (by decide)]
    omega
  refine gridStep_lt hlow hhigh ?_
  push_cast
  omega

end TemplateView.Number
