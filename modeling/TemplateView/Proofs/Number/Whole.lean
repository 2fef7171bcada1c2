/-
Whole numbers among floating-point numbers. Those below 2 ^ 53 are themselves numbers, and larger ones become numbers that
are no smaller (`approximates_ofInt`); a sum lies on the same side of each of them as the exact sum (`approximates_add`).
-/
import Mathlib.Algebra.Order.Floor.Semifield
import Mathlib.Data.Nat.Cast.Field
import Mathlib.Data.Rat.Floor
import TemplateView.Proofs.Number.Order
import TemplateView.Proofs.Number.Rounding

namespace TemplateView.Number

open Float.Model

/-- a whole number below 2 ^ 53 is hit exactly -/
theorem Approximates.value_eq {k : Int} {x : Float} (h : Approximates k x) (hk : k.natAbs < 2 ^ 53) : value x = k :=
  le_antisymm (h.beside.le k hk le_rfl) (h.beside.ge k hk le_rfl)

/-! ## Sums -/

theorem decreaseExponent_of_le (m : Nat) {e k : Int} (h : k ≤ e) :
    UnpackedFloat.decreaseExponent m e k = (m * 2 ^ (e - k).toNat, k) := by
  show (m <<< (e - k).toNat, e - ((e - k).toNat : Int)) = _
  rw [Nat.shiftLeft_eq]
  congr 1
  omega

theorem apply_mul_zpow (s : UnpackedFloat.Sign) (m : Nat) {e k : Int} (h : k ≤ e) :
    ((s.apply (m * 2 ^ (e - k).toNat : Nat) : Int) * 2 ^ k : ℚ) = withSign (isNegative s) (m * 2 ^ e) := by
  have hpow : ((m * 2 ^ (e - k).toNat : Nat) * 2 ^ k : ℚ) = m * 2 ^ e := by
    have hk : e - ((e - k).toNat : Int) = k := by omega
    have := mul_two_pow_zpow m e (e - k).toNat
    rwa [hk] at this
  rw [← hpow]
  cases s
  · show ((-((m * 2 ^ (e - k).toNat : Nat) : Int) : Int) * 2 ^ k : ℚ) = -(_ * _)
    rw [Int.cast_neg, Int.cast_natCast, neg_mul]
  · rfl

theorem approximates_self {x : Float} (h : exact x ≠ .nan) : Approximates (value x) x :=
  ⟨h, fun _ _ => id, fun _ _ => id⟩

/-- packing undoes unpacking -/
theorem pack_unpack {x : Float} (h : exact x ≠ .nan) : Float.ofModel (.pack x.toModel.unpack) = x := by
  have hexact : exact (.ofModel (.pack x.toModel.unpack)) = exact x := by
    have hx : exact x = exact x := rfl
    conv at hx => rhs; unfold exact
    rw [hx]
    cases hu : x.toModel.unpack with
    | notANumber => exact absurd hu (exact_ne_nan.1 h)
    | infinity s => exact exact_pack_infinity s
    | zero s => exact exact_pack_zero s
    | finite s m e hm => exact exact_pack_finite hm (canonical_of_unpack hu)
  exact eq_of_exact (hexact ▸ h) hexact

theorem add_eq (x y : Float) : x + y = .ofModel (.pack (.add Format.binary64 x.toModel.unpack y.toModel.unpack)) := rfl

/-- two finite numbers are added in the unit of the smaller exponent -/
theorem add_finite (s t : UnpackedFloat.Sign) {m m' : Nat} {e e' : Int} (hm : 0 < m) (hm' : 0 < m') :
    UnpackedFloat.add Format.binary64 (.finite s m e hm) (.finite t m' e' hm') =
      .normalize Format.binary64 (s.apply (m * 2 ^ (e - min e e').toNat : Nat) +
        t.apply (m' * 2 ^ (e' - min e e').toNat : Nat)) (min e e') .positive := by
  show UnpackedFloat.normalize _ (s.apply (UnpackedFloat.decreaseExponent m e (min e e')).1 +
    t.apply (UnpackedFloat.decreaseExponent m' e' (min e e')).1) _ _ = _
  rw [decreaseExponent_of_le m (min_le_left e e'), decreaseExponent_of_le m' (min_le_right e e')]

/-- the sum of two finite numbers is rounded to a number beside the exact sum -/
theorem approximates_add_finite {x y : Float} {s t : Bool} {m m' : Nat} {e e' : Int} (hx : exact x = .finite s m e)
    (hy : exact y = .finite t m' e') : Approximates (value x + value y) (x + y) := by
  have hn : exact x ≠ .nan := by rw [hx]; exact nofun
  have hn' : exact y ≠ .nan := by rw [hy]; exact nofun
  have hpack := pack_unpack hn
  have hpack' := pack_unpack hn'
  have hvx := value_eq x
  have hvy := value_eq y
  unfold exact at hx hy
  cases hu : x.toModel.unpack with
  | notANumber => rw [hu] at hx; cases hx
  | infinity s => rw [hu] at hx; cases hx
  | zero s =>
    -- the sum is the other number, or zero
    have hzero : value x = 0 := by rw [hvx, hu]; rfl
    rw [hzero, zero_add]
    cases hv : y.toModel.unpack with
    | notANumber => rw [hv] at hy; cases hy
    | infinity t => rw [hv] at hy; cases hy
    | zero t =>
      have hadd : UnpackedFloat.add Format.binary64 (.zero s) (.zero t) = .zero (if s == t then s else .positive) := by
        cases s <;> cases t <;> rfl
      have hzero' : value y = 0 := by rw [hvy, hv]; rfl
      rw [add_eq, hu, hv, hadd, hzero']
      exact approximates_zero _
    | finite t m' e' hm' =>
      have hadd : x + y = y := by
        rw [hv] at hpack'
        rw [add_eq, hu, hv]
        exact hpack'
      rw [hadd]
      exact approximates_self hn'
  | finite s m e hm =>
    cases hv : y.toModel.unpack with
    | notANumber => rw [hv] at hy; cases hy
    | infinity t => rw [hv] at hy; cases hy
    | zero t =>
      have hzero : value y = 0 := by rw [hvy, hv]; rfl
      have hadd : x + y = x := by
        rw [hu] at hpack
        rw [add_eq, hu, hv]
        exact hpack
      rw [hzero, add_zero, hadd]
      exact approximates_self hn
    | finite t m' e' hm' =>
      have hsum := approximates_normalize
        (s.apply (m * 2 ^ (e - min e e').toNat : Nat) + t.apply (m' * 2 ^ (e' - min e e').toNat : Nat)) (min e e') .positive
      rw [Int.cast_add, add_mul, apply_mul_zpow s m (min_le_left e e'), apply_mul_zpow t m' (min_le_right e e')] at hsum
      rw [hvx, hvy, add_eq, hu, hv, add_finite]
      exact hsum

/-- an infinity takes up a finite number -/
theorem add_infinite {x y : Float} {s t : Bool} {m : Nat} {e : Int} (hx : exact x = .finite s m e)
    (hy : exact y = .infinite t) : x + y = y := by
  have hpack := pack_unpack (x := y) (by rw [hy]; exact nofun)
  unfold exact at hx hy
  cases hv : y.toModel.unpack with
  | infinity t =>
    rw [hv] at hpack
    rw [add_eq, hv]
    cases hu : x.toModel.unpack with
    | zero s => exact hpack
    | finite s m e hm => exact hpack
    | _ => rw [hu] at hx; cases hx
  | _ => rw [hv] at hy; cases hy

theorem two_pow_le_beyond : (2 ^ 54 : ℚ) ≤ beyond := by
  have h : (2 : ℚ) ^ (54 : Int) ≤ beyond := zpow_le_zpow_right₀ (by norm_num) (by norm_num)
  exact_mod_cast h

/-- an infinity is beyond whatever is added to it -/
theorem approximates_infinite {x : Float} {negative : Bool} (h : exact x = .infinite negative) {n : Nat}
    (hn : n < 2 ^ 53) : Approximates (n + value x) x := by
  have hb := two_pow_le_beyond
  have hn' : (n : ℚ) < 2 ^ 53 := by exact_mod_cast hn
  have hpos : (0 : ℚ) ≤ n := n.cast_nonneg
  have hbounds : ∀ k : Int, k.natAbs < 2 ^ 53 → (-2 ^ 53 : ℚ) < k ∧ (k : ℚ) < 2 ^ 53 := by
    intro k hk
    have hk' : -2 ^ 53 < k ∧ k < 2 ^ 53 := by omega
    exact_mod_cast hk'
  rw [value_of_infinite h]
  refine ⟨by rw [h]; exact nofun, fun k hk hq => ?_, fun k hk hq => ?_⟩ <;> obtain ⟨hl, hr⟩ := hbounds k hk <;>
    rw [value_of_infinite h] <;> cases negative <;> rw [withSign] at hq ⊢ <;> norm_num at hq ⊢ <;> linarith

theorem abs_withSign (s : Bool) (q : ℚ) : |withSign s q| = |q| := by
  cases s with
  | false => rfl
  | true => exact abs_neg q

/-- a value below the infinities is that of a finite number -/
theorem exact_of_lt {x : Float} (hx : exact x ≠ .nan) {n : Nat} (hn : n < 2 ^ 53) (h : |value x| ≤ n) :
    ∃ s m e, exact x = .finite s m e := by
  have hb := two_pow_le_beyond
  have hn' : (n : ℚ) < 2 ^ 53 := by exact_mod_cast hn
  cases hexact : exact x with
  | nan => exact absurd hexact hx
  | infinite s =>
    rw [value_of_infinite hexact, abs_withSign, abs_of_pos beyond_pos] at h
    linarith
  | finite s m e => exact ⟨s, m, e, rfl⟩

/-- **A sum with a whole number** is rounded to a number beside the exact sum. -/
theorem approximates_add {x y : Float} {n : Nat} (hx : exact x ≠ .nan) (hn : value x = n) (hlt : n < 2 ^ 53)
    (hy : exact y ≠ .nan) : Approximates (n + value y) (x + y) := by
  obtain ⟨s, m, e, hexact⟩ := exact_of_lt hx hlt (by rw [hn, Nat.abs_cast])
  cases hy' : exact y with
  | nan => exact absurd hy' hy
  | infinite t =>
    rw [add_infinite hexact hy']
    exact approximates_infinite hy' hlt
  | finite t m' e' =>
    rw [← hn]
    exact approximates_add_finite hexact hy'

/-! ## Whole numbers as numbers -/

theorem neg_eq (x : Float) : -x = .ofModel (.pack x.toModel.unpack.neg) := rfl

theorem isNegative_neg (s : UnpackedFloat.Sign) : isNegative (-s) = !isNegative s := by
  cases s <;> rfl

theorem withSign_not (s : Bool) (q : ℚ) : withSign (!s) q = -withSign s q := by
  cases s <;> simp [withSign]

theorem value_neg {x : Float} (hx : exact x ≠ .nan) : exact (-x) ≠ .nan ∧ value (-x) = -value x := by
  rw [neg_eq, value_eq x]
  cases hu : x.toModel.unpack with
  | notANumber => exact absurd hu (exact_ne_nan.1 hx)
  | infinity s =>
    have hexact := exact_pack_infinity (-s)
    show exact (.ofModel (.pack (.infinity (-s)))) ≠ _ ∧ value (.ofModel (.pack (.infinity (-s)))) = _
    rw [value_of_infinite hexact, hexact, isNegative_neg, withSign_not]
    exact ⟨(fun h => by cases h), rfl⟩
  | zero s =>
    have hexact := exact_pack_zero (-s)
    show exact (.ofModel (.pack (.zero (-s)))) ≠ _ ∧ value (.ofModel (.pack (.zero (-s)))) = _
    rw [value_of_exact hexact, hexact, isNegative_neg, withSign_not, Nat.cast_zero, zero_mul]
    refine ⟨(fun h => by cases h), ?_⟩
    show -withSign (isNegative s) 0 = -0
    cases s <;> simp [withSign]
  | finite s m e hm =>
    have hexact := exact_pack_finite (s := -s) hm (canonical_of_unpack hu)
    show exact (.ofModel (.pack (.finite (-s) m e hm))) ≠ _ ∧ value (.ofModel (.pack (.finite (-s) m e hm))) = _
    rw [value_of_exact hexact, hexact, isNegative_neg, withSign_not]
    exact ⟨(fun h => by cases h), rfl⟩

theorem Approximates.neg {q : ℚ} {x : Float} (h : Approximates q x) : Approximates (-q) (-x) := by
  obtain ⟨hn, hv⟩ := value_neg h.isNumber
  exact ⟨hn, hv ▸ h.beside.neg⟩

theorem mul_positive (s : UnpackedFloat.Sign) : s * .positive = s := by
  cases s <;> rfl

section

variable (s t : UnpackedFloat.Sign) {m m' : Nat} {e e' : Int}

theorem mul_infinity_finite (hm : 0 < m) :
    UnpackedFloat.mul Format.binary64 (.infinity s) (.finite t m e hm) = .infinity (s * t) := rfl

theorem mul_zero_finite (hm : 0 < m) :
    UnpackedFloat.mul Format.binary64 (.zero s) (.finite t m e hm) = .zero (s * t) := rfl

theorem mul_finite (hm : 0 < m) (hm' : 0 < m') :
    UnpackedFloat.mul Format.binary64 (.finite s m e hm) (.finite t m' e' hm') =
      .roundWithAccuracy Format.binary64 (s * t) (m * m') (e + e') .exact := rfl

end

/-- multiplying by 1 -/
theorem approximates_mul_one {x one : Float} {hp : 0 < 2 ^ 52}
    (hone : one.toModel.unpack = .finite .positive (2 ^ 52) (-52) hp) (hx : exact x ≠ .nan) :
    Approximates (value x) (x * one) := by
  have hmul : x * one = .ofModel (.pack (.mul Format.binary64 x.toModel.unpack (.finite .positive (2 ^ 52) (-52) hp))) := by
    rw [← hone]
    rfl
  rw [hmul]
  cases hu : x.toModel.unpack with
  | notANumber => exact absurd hu (exact_ne_nan.1 hx)
  | infinity s =>
    rw [mul_infinity_finite, mul_positive, ← hu, pack_unpack hx]
    exact approximates_self hx
  | zero s =>
    rw [mul_zero_finite, mul_positive, ← hu, pack_unpack hx]
    exact approximates_self hx
  | finite s m e hm =>
    have hc := canonical_of_unpack hu
    have hlow := hc.low
    have hgrid : e - (52 : Nat) ≤ grid (m * 2 ^ 52) (e - (52 : Nat)) := by
      rw [grid_eq, log2_mul_two_pow hm.ne']
      rcases hc.full with h | h
      · omega
      · rw [log2_eq_of_full h hc.lt]
        omega
    have hvalue : value x = withSign (isNegative s) (m * 2 ^ e) := by rw [value_eq, hu]; rfl
    rw [mul_finite, mul_positive, hvalue, ← mul_two_pow_zpow m e 52]
    exact approximates_roundWithAccuracy s (Nat.mul_ne_zero hm.ne' (by decide)) hgrid

theorem unpack_one : (Float.exactlyRepresentablePowersOfTen[0]).toModel.unpack =
    .finite .positive (2 ^ 52) (-52) (Nat.two_pow_pos 52) := by
  rfl

/-- a word that holds a small number is rounded to it -/
theorem approximates_toFloat (n : UInt64) : Approximates n.toNat n.toFloat := by
  have h := approximates_normalize n.toNat 0 .positive
  rwa [zpow_zero, mul_one, Int.cast_natCast] at h

/-- **A natural number** becomes a number beside it. -/
theorem approximates_ofNat (n : Nat) : Approximates n (Float.ofNat n) := by
  show Approximates n (Float.ofScientific n false 0)
  unfold Float.ofScientific
  by_cases h : n < 2 ^ 53
  · -- a small one is rounded as a word and multiplied by 1
    rw [dif_pos ⟨h, by decide⟩]
    have hword : n.toUInt64.toNat = n := UInt64.toNat_ofNat_of_lt' (h.trans (by decide))
    have hrounded := approximates_toFloat n.toUInt64
    rw [hword] at hrounded
    have hmul := approximates_mul_one unpack_one hrounded.isNumber
    rwa [hrounded.value_eq (k := n) h, Int.cast_natCast] at hmul
  · -- a large one gets 53 more bits and is multiplied by 1
    rw [dif_neg fun hn => h hn.1]
    have hn : n ≠ 0 := by
      rintro rfl
      exact h (by decide)
    have hround : UnpackedFloat.ofScientific Format.binary64 n 0 =
        .roundWithAccuracy Format.binary64 .positive (n * 2 ^ 53) (0 - (53 : Nat)) .exact := by
      have hlow : (0 : Int) ≤ 2 ^ Format.binary64.exponentBits := by positivity
      have hten : 10 ^ Int.toNat 0 = 1 := rfl
      rw [UnpackedFloat.ofScientific, dif_neg hn, if_neg (by decide), if_neg (by omega), if_pos le_rfl,
        mul_finite, Nat.shiftLeft_eq, hten, Nat.mul_one]
      rfl
    have hgrid : 0 - ((53 : Nat) : Int) ≤ grid (n * 2 ^ 53) (0 - (53 : Nat)) := by
      rw [grid_eq, log2_mul_two_pow hn]
      omega
    have hlarge := approximates_roundWithAccuracy .positive (Nat.mul_ne_zero hn (by decide)) hgrid
    rw [mul_two_pow_zpow, zpow_zero, mul_one, ← hround] at hlarge
    exact hlarge

/-- **A whole number** becomes a number beside it. -/
theorem approximates_ofInt (k : Int) : Approximates k (Float.ofInt k) := by
  cases k with
  | ofNat n => exact approximates_ofNat n
  | negSucc n =>
    rw [Int.cast_negSucc]
    exact (approximates_ofNat (n + 1)).neg

/-! ## Numbers as whole numbers -/

/-- rounding toward zero drops what stands behind the point -/
theorem roundToInt_eq (s : UnpackedFloat.Sign) (m : Nat) (e : Int) :
    UnpackedFloat.roundToInt s m e = s.apply ⌊(m * 2 ^ e : ℚ)⌋₊ := by
  show s.apply (shifted (m <<< (e - 0).toNat) (0 - (e - ((e - 0).toNat : Int))).toNat).mantissa = _
  rw [mantissa_shifted, Nat.shiftLeft_eq]
  congr 2
  rcases le_total 0 e with h | h
  · lift e to Nat using h
    have h0 : (0 - ((e : Int) - (((e : Int) - 0).toNat : Int))).toNat = 0 := by omega
    have hvalue : (m * 2 ^ (e : Int) : ℚ) = (m * 2 ^ e : Nat) := by push_cast; rw [zpow_natCast]
    rw [h0, pow_zero, Nat.div_one, hvalue, Nat.floor_natCast]
    rfl
  · obtain ⟨k, rfl⟩ : ∃ k : Nat, e = -k := ⟨(-e).toNat, by omega⟩
    have h0 : (-(k : Int) - 0).toNat = 0 := by omega
    have hk : (0 - (-(k : Int) - ((0 : Nat) : Int))).toNat = k := by omega
    have hvalue : (m * 2 ^ (-(k : Int)) : ℚ) = (m : ℚ) / (2 ^ k : Nat) := by
      rw [zpow_neg, zpow_natCast, div_eq_mul_inv]
      push_cast
      rfl
    rw [h0, pow_zero, mul_one, hk, hvalue, Nat.floor_div_eq_div]

theorem toNat_ofNatClamp {n : Nat} (h : n < UInt64.size) : (UInt64.ofNatClamp n).toNat = n := by
  unfold UInt64.ofNatClamp
  rw [dif_pos h]
  exact UInt64.toNat_ofNatLT

/-- a number becomes a word without what stands behind its point, zero if it is negative -/
theorem toNat_toUInt64 {x : Float} (hx : exact x ≠ .nan) (h : value x < 2 ^ 64) :
    x.toUInt64.toNat = ⌊value x⌋₊ := by
  show (UInt64.ofNatClamp (x.toModel.unpack.toInt 0 (UInt64.size - 1)).toNat).toNat = _
  have hfloor : ⌊value x⌋₊ < 2 ^ 64 := by
    rcases le_total 0 (value x) with h0 | h0
    · exact (Nat.floor_lt h0).2 (by exact_mod_cast h)
    · rw [Nat.floor_of_nonpos h0]
      decide
  have hint : (x.toModel.unpack.toInt 0 (UInt64.size - 1)).toNat = ⌊value x⌋₊ := by
    rw [value_eq x] at h ⊢
    cases hu : x.toModel.unpack with
    | notANumber => exact absurd hu (exact_ne_nan.1 hx)
    | infinity s =>
      cases s with
      | negative => exact (Nat.floor_of_nonpos (neg_nonpos.2 beyond_nonneg)).symm
      | positive =>
        have hb : (2 : ℚ) ^ (64 : Int) ≤ beyond := zpow_le_zpow_right₀ (by norm_num) (by norm_num)
        rw [hu] at h
        exact absurd (hb.trans_lt h) (by norm_num)
    | zero s => exact Nat.floor_zero.symm
    | finite s m e hm =>
      show (UnpackedFloat.roundToInt s m e).toNat = _
      rw [roundToInt_eq]
      cases s with
      | negative =>
        have hneg : unpackedValue (.finite .negative m e hm) ≤ 0 := neg_nonpos.2 (mul_zpow_pos hm e).le
        rw [Nat.floor_of_nonpos hneg]
        exact Int.toNat_of_nonpos (neg_nonpos.2 (Int.natCast_nonneg _))
      | positive => exact Int.toNat_natCast _
  rw [hint, toNat_ofNatClamp hfloor]

/-! ## Whole values -/

theorem cast_signed (s : Bool) (n : Nat) : ((signed s n : Int) : ℚ) = withSign s n := by
  cases s <;> simp [signed, withSign]

/-- **Whole numbers are those with a whole value.** -/
theorem whole?_eq_some_iff {x : Float} {s : Bool} {m : Nat} {e : Int} (h : exact x = .finite s m e) (k : Int) :
    whole? x = some k ↔ value x = k := by
  have key : ∀ n : Nat, (n : ℚ) = m * 2 ^ e → (some (signed s n) = some k ↔ value x = k) := by
    intro n hn
    rw [Option.some_inj, value_of_exact h, ← hn, ← cast_signed, Int.cast_inj]
  unfold whole?
  rw [h]
  cases e with
  | ofNat e =>
    refine key _ ?_
    rw [Int.ofNat_eq_natCast, zpow_natCast, Nat.cast_mul, Nat.pow_eq, Nat.cast_pow, Nat.cast_ofNat]
  | negSucc e =>
    have hmul : (m * 2 ^ Int.negSucc e : ℚ) = m / (2 ^ (e + 1) : Nat) := by
      rw [zpow_negSucc, div_eq_mul_inv, Nat.cast_pow, Nat.cast_ofNat]
    dsimp only
    split
    · next hmod =>
      refine key _ ?_
      have hne : ((2 ^ (e + 1) : Nat) : ℚ) ≠ 0 := by positivity
      rw [hmul]
      exact Nat.cast_div (Nat.dvd_of_mod_eq_zero hmod) hne
    · next hmod =>
      refine iff_of_false nofun fun hv => hmod (Nat.mod_eq_zero_of_dvd ?_)
      -- a whole value makes the mantissa a multiple of the power of two
      have habs : (m : ℚ) = k.natAbs * (2 ^ (e + 1) : Nat) := by
        have hk : |value x| = k.natAbs := by
          rw [hv, ← Int.cast_abs, Int.abs_eq_natAbs, Int.cast_natCast]
        have hm : |value x| = m / (2 ^ (e + 1) : Nat) := by
          have hpos : (0 : ℚ) ≤ m / (2 ^ (e + 1) : Nat) := by positivity
          rw [value_of_exact h, hmul, abs_withSign, abs_of_nonneg hpos]
        rw [← hk, hm, div_mul_cancel₀ _ (by positivity)]
      exact Dvd.intro_left k.natAbs (by exact_mod_cast habs.symm)

/-- a whole number below 2 ^ 53 is kept -/
theorem whole?_of_approximates {x : Float} {k : Int} (h : Approximates k x) (hk : k.natAbs < 2 ^ 53) :
    whole? x = some k := by
  have hv := h.value_eq hk
  obtain ⟨s, m, e, hexact⟩ := exact_of_lt h.isNumber hk (by rw [hv, ← Int.cast_abs, Int.abs_eq_natAbs, Int.cast_natCast])
  exact (whole?_eq_some_iff hexact k).2 hv

theorem value_of_whole? {x : Float} {k : Int} (h : whole? x = some k) : value x = k := by
  cases hexact : exact x with
  | nan => rw [whole?, hexact] at h; cases h
  | infinite s => rw [whole?, hexact] at h; cases h
  | finite s m e => exact (whole?_eq_some_iff hexact k).1 h

end TemplateView.Number
