/-
Rounding and whole numbers. A number is rounded to a multiple of the step of its grid (`value_roundWithAccuracy`), and as
whole numbers below 2 ^ 53 are multiples of all steps that matter to them, rounding passes none of these: what a sum or a
whole number is rounded to lies on the same side of each of them (`Approximates`).
-/
import TemplateView.Proofs.Number.Packing

namespace TemplateView.Number

open Float.Model

/-! ## Rounding -/

/-- the exponent of the grid that a number is rounded to -/
def grid (m : Nat) (e : Int) : Int := Format.binary64.targetExponent (totalExponent m e)

theorem grid_eq (m : Nat) (e : Int) : grid m e = max (m.log2 + e - 52) (-1074) := by
  have hmin : Format.binary64.minExponent = -1074 := rfl
  have hbits : (Format.binary64.mantissaBits : Int) = 53 := rfl
  unfold grid Format.targetExponent totalExponent
  rw [hmin, hbits]
  omega

/-- a mantissa without its last `k` bits, which are remembered for rounding -/
def shifted (m k : Nat) : UnpackedFloat.ExtendedMantissa :=
  (⟨m, false, false⟩ : UnpackedFloat.ExtendedMantissa) >>> k

theorem shifted_succ (m k : Nat) : shifted m (k + 1) = (shifted m k).shiftRightOne := rfl

theorem mantissa_shifted (m k : Nat) : (shifted m k).mantissa = m / 2 ^ k := by
  induction k with
  | zero => exact (Nat.div_one m).symm
  | succ k ih =>
    rw [shifted_succ, UnpackedFloat.ExtendedMantissa.shiftRightOne, ih, Nat.div_div_eq_div_mul, Nat.pow_succ]

/-- a bit is remembered only if one was lost -/
theorem not_dvd_of_residue {m k : Nat} (h : ((shifted m k).roundBit || (shifted m k).stickyBit) = true) : ¬ 2 ^ k ∣ m := by
  induction k with
  | zero => cases h
  | succ k ih =>
    intro hdvd
    rw [shifted_succ, UnpackedFloat.ExtendedMantissa.shiftRightOne, Bool.or_eq_true] at h
    rcases h with h | h
    · -- the bit that was shifted out last
      obtain ⟨c, rfl⟩ := hdvd
      rw [mantissa_shifted, Nat.pow_succ, Nat.mul_assoc, Nat.mul_div_cancel_left _ (Nat.two_pow_pos k),
        Nat.mul_mod_right] at h
      cases h
    · exact ih h (Nat.dvd_trans (Nat.pow_dvd_pow 2 (Nat.le_succ k)) hdvd)

theorem roundedMantissa_cases (em : UnpackedFloat.ExtendedMantissa) :
    em.roundedMantissa = em.mantissa ∨
      em.roundedMantissa = em.mantissa + 1 ∧ (em.roundBit || em.stickyBit) = true := by
  obtain ⟨m, r, s⟩ := em
  cases r <;> cases s
  · exact .inl rfl
  · exact .inl rfl
  · show m + m % 2 = m ∨ m + m % 2 = m + 1 ∧ true = true
    rcases Nat.mod_two_eq_zero_or_one m with h | h <;> rw [h]
    · exact .inl rfl
    · exact .inr ⟨rfl, rfl⟩
  · exact .inr ⟨rfl, rfl⟩

/-- rounding does not pass a multiple of the step -/
theorem rounded_le {m k n : Nat} (h : m ≤ n * 2 ^ k) : (shifted m k).roundedMantissa ≤ n := by
  have hdiv : m / 2 ^ k ≤ n := Nat.div_le_of_le_mul (by rwa [Nat.mul_comm])
  rcases roundedMantissa_cases (shifted m k) with hr | ⟨hr, hb⟩ <;> rw [hr, mantissa_shifted]
  · exact hdiv
  · have hne : m / 2 ^ k ≠ n := by
      rintro rfl
      exact not_dvd_of_residue hb (Dvd.intro_left _ (le_antisymm (Nat.div_mul_le_self m (2 ^ k)) h))
    exact Nat.lt_of_le_of_ne hdiv hne

theorem le_rounded {m k n : Nat} (h : n * 2 ^ k ≤ m) : n ≤ (shifted m k).roundedMantissa := by
  have hdiv : n ≤ m / 2 ^ k := (Nat.le_div_iff_mul_le (Nat.two_pow_pos k)).2 h
  rcases roundedMantissa_cases (shifted m k) with hr | ⟨hr, -⟩ <;> rw [hr, mantissa_shifted]
  · exact hdiv
  · exact Nat.le_succ_of_le hdiv

/-! ## The rounded number -/

/-- a shift that drops nothing -/
theorem shiftToTargetExponent_of_le {m : Nat} {e : Int} (h : grid m e ≤ e) :
    UnpackedFloat.shiftToTargetExponent Format.binary64 m e .exact = (⟨m, false, false⟩, e) := by
  have hk : (grid m e - e).toNat = 0 := by omega
  show (shifted m (grid m e - e).toNat, e + ((grid m e - e).toNat : Int)) = _
  rw [hk]
  exact congrArg (_, ·) (Int.add_zero e)

/-- a mantissa that rounding has made too long by one bit -/
theorem shiftToTargetExponent_carry {e : Int} (h : -1074 ≤ e) :
    UnpackedFloat.shiftToTargetExponent Format.binary64 (2 ^ 53) e .exact = (⟨2 ^ 52, false, false⟩, e + 1) := by
  have hk : (grid (2 ^ 53) e - e).toNat = 1 := by
    rw [grid_eq, Nat.log2_two_pow]
    omega
  show (shifted (2 ^ 53) (grid (2 ^ 53) e - e).toNat, e + ((grid (2 ^ 53) e - e).toNat : Int)) = _
  rw [hk]
  rfl

/-- the mantissa of the number that `m · 2 ^ e` is rounded to, in steps of the grid -/
def nearest (m : Nat) (e : Int) : Nat := (shifted m (grid m e - e).toNat).roundedMantissa

theorem lt_two_pow_of_grid (m : Nat) (e : Int) : m < 2 ^ 53 * 2 ^ (grid m e - e).toNat := by
  have hk : m.log2 + 1 ≤ 53 + (grid m e - e).toNat := by
    have := grid_eq m e
    omega
  rw [← Nat.pow_add]
  exact Nat.lt_log2_self.trans_le (Nat.pow_le_pow_right (by decide) hk)

theorem nearest_le (m : Nat) (e : Int) : nearest m e ≤ 2 ^ 53 :=
  rounded_le (lt_two_pow_of_grid m e).le

/-- above the lowest grid, a mantissa has its full size -/
theorem le_nearest {m : Nat} {e : Int} (hm : m ≠ 0) (he : e ≤ grid m e) (h : grid m e ≠ -1074) : 2 ^ 52 ≤ nearest m e := by
  have hk : 52 + (grid m e - e).toNat = m.log2 := by
    have := grid_eq m e
    omega
  refine le_rounded ?_
  rw [← Nat.pow_add, hk]
  exact Nat.log2_self_le hm

theorem roundWithAccuracy_eq (s : UnpackedFloat.Sign) (m : Nat) {e : Int} (he : e ≤ grid m e) :
    .roundWithAccuracy Format.binary64 s m e .exact =
      if h : nearest m e = 0 then UnpackedFloat.zero s
      else if nearest m e < 2 ^ 53 then .finite s (nearest m e) (grid m e) (Nat.pos_of_ne_zero h)
      else .finite s (2 ^ 52) (grid m e + 1) (Nat.two_pow_pos 52) := by
  have hlow : -1074 ≤ grid m e := by
    have := grid_eq m e
    omega
  have hfirst : UnpackedFloat.shiftToTargetExponent Format.binary64 m e .exact =
      (shifted m (grid m e - e).toNat, grid m e) := by
    show (shifted m (grid m e - e).toNat, e + ((grid m e - e).toNat : Int)) = _
    congr 1
    omega
  unfold UnpackedFloat.roundWithAccuracy
  rw [hfirst]
  dsimp only
  rw [show (shifted m (grid m e - e).toNat).roundedMantissa = nearest m e from rfl]
  rcases Nat.lt_or_ge (nearest m e) (2 ^ 53) with hr | hr
  · -- no carry
    have hgrid : grid (nearest m e) (grid m e) ≤ grid m e := by
      have hlog : (nearest m e).log2 ≤ 52 := by
        by_cases h0 : nearest m e = 0
        · rw [h0]
          decide
        · exact Nat.le_of_lt_succ ((Nat.log2_lt h0).2 hr)
      have := grid_eq (nearest m e) (grid m e)
      omega
    rw [shiftToTargetExponent_of_le hgrid]
    exact dite_congr rfl (fun _ => rfl) fun _ => (if_pos hr).symm
  · have heq : nearest m e = 2 ^ 53 := le_antisymm (nearest_le m e) hr
    rw [heq, shiftToTargetExponent_carry hlow]
    rfl

/-- **The value of a rounded number** is a multiple of the step of its grid. -/
theorem value_roundWithAccuracy (s : UnpackedFloat.Sign) {m : Nat} {e : Int} (hm : m ≠ 0) (he : e ≤ grid m e) :
    exact (.ofModel (.pack (.roundWithAccuracy Format.binary64 s m e .exact))) ≠ .nan ∧
      value (.ofModel (.pack (.roundWithAccuracy Format.binary64 s m e .exact))) =
        withSign (isNegative s) (min (nearest m e * 2 ^ grid m e) beyond) := by
  have hlow : -1074 ≤ grid m e := by
    have := grid_eq m e
    omega
  have hround := roundWithAccuracy_eq s m he
  by_cases h0 : nearest m e = 0
  · have hexact := exact_pack_zero s
    rw [hround.trans (dif_pos h0), value_of_exact hexact, hexact, h0, Nat.cast_zero, zero_mul, zero_mul, min_eq_left beyond_nonneg]
    exact ⟨nofun, rfl⟩
  rw [hround.trans (dif_neg h0)]
  by_cases hr : nearest m e < 2 ^ 53
  · rw [if_pos hr]
    exact value_pack _ hr hlow (or_iff_not_imp_left.2 (le_nearest hm he))
  · have heq : nearest m e = 2 ^ 53 := le_antisymm (nearest_le m e) (not_lt.1 hr)
    obtain ⟨hn, hv⟩ := value_pack (s := s) (Nat.two_pow_pos 52) (by decide) (show -1074 ≤ grid m e + 1 by omega)
      (.inr le_rfl)
    have hcarry : ((2 ^ 52 : Nat) * 2 ^ (grid m e + 1) : ℚ) = (2 ^ 53 : Nat) * 2 ^ grid m e := by
      rw [zpow_add₀ (by norm_num)]
      push_cast
      ring
    rw [if_neg hr, heq, ← hcarry]
    exact ⟨hn, hv⟩

/-! ## Whole numbers beside a rounded one -/

/-- a step of a grid that is not above 1 divides whole numbers -/
theorem natCast_eq_mul_zpow {t : Int} (ht : t ≤ 0) (n : Nat) : (n : ℚ) = (n * 2 ^ (-t).toNat : Nat) * 2 ^ t := by
  have h : ((-t).toNat : Int) + t = 0 := by omega
  rw [Nat.cast_mul, Nat.cast_pow, Nat.cast_ofNat, mul_assoc, ← zpow_natCast, ← zpow_add₀ (by norm_num), h, zpow_zero,
    mul_one]

/-- the step of the grid, in the unit of the mantissa -/
theorem zpow_grid {m : Nat} {e : Int} (he : e ≤ grid m e) :
    (2 ^ grid m e : ℚ) = (2 ^ (grid m e - e).toNat : Nat) * 2 ^ e := by
  have h : ((grid m e - e).toNat : Int) + e = grid m e := by omega
  rw [Nat.cast_pow, Nat.cast_ofNat, ← zpow_natCast, ← zpow_add₀ (by norm_num), h]

theorem nearest_mul_le {m : Nat} {e : Int} (hm : m ≠ 0) (he : e ≤ grid m e) {n : Nat} (hn : n < 2 ^ 53)
    (h : (m * 2 ^ e : ℚ) ≤ n) : (nearest m e * 2 ^ grid m e : ℚ) ≤ n := by
  have ht : grid m e ≤ 0 := by
    have hlog : (2 : ℚ) ^ (m.log2 + e : Int) < 2 ^ (53 : Int) := by
      have hself : ((2 : ℚ) ^ (m.log2 : Int)) ≤ m := by exact_mod_cast Nat.log2_self_le hm
      have hn' : (n : ℚ) < 2 ^ (53 : Int) := by exact_mod_cast hn
      calc (2 : ℚ) ^ (m.log2 + e : Int) = 2 ^ (m.log2 : Int) * 2 ^ e := zpow_add₀ (by norm_num) ..
        _ ≤ m * 2 ^ e := mul_le_mul_of_nonneg_right hself (by positivity)
        _ < 2 ^ (53 : Int) := h.trans_lt hn'
    have := (zpow_lt_zpow_iff_right₀ (by norm_num : (1 : ℚ) < 2)).1 hlog
    have := grid_eq m e
    omega
  rw [natCast_eq_mul_zpow ht n] at h ⊢
  refine mul_le_mul_of_nonneg_right (Nat.cast_le.2 (rounded_le ?_)) (by positivity)
  rw [zpow_grid he, ← mul_assoc, ← Nat.cast_mul] at h
  exact Nat.cast_le.1 (le_of_mul_le_mul_right h (by positivity))

theorem le_nearest_mul {m : Nat} {e : Int} (hm : m ≠ 0) (he : e ≤ grid m e) {n : Nat} (hn : n < 2 ^ 53)
    (h : (n : ℚ) ≤ m * 2 ^ e) : (n : ℚ) ≤ nearest m e * 2 ^ grid m e := by
  by_cases ht : grid m e ≤ 0
  · rw [natCast_eq_mul_zpow ht n] at h ⊢
    refine mul_le_mul_of_nonneg_right (Nat.cast_le.2 (le_rounded ?_)) (by positivity)
    rw [zpow_grid he, ← mul_assoc, ← Nat.cast_mul] at h
    exact Nat.cast_le.1 (le_of_mul_le_mul_right h (by positivity))
  · -- a step above 1 stands only below numbers from 2 ^ 53 on
    have hfull := le_nearest hm he (by omega)
    have hn' : (n : ℚ) ≤ 2 ^ (53 : Int) := by exact_mod_cast hn.le
    exact hn'.trans (le_mul_zpow hfull (by omega))

/-- two values that lie on the same side of each whole number between -2 ^ 53 and 2 ^ 53 -/
structure Beside (q v : ℚ) : Prop where
  le : ∀ k : Int, k.natAbs < 2 ^ 53 → q ≤ k → v ≤ k
  ge : ∀ k : Int, k.natAbs < 2 ^ 53 → k ≤ q → k ≤ v

theorem Beside.neg {q v : ℚ} (h : Beside q v) : Beside (-q) (-v) := by
  refine ⟨fun k hk hq => ?_, fun k hk hq => ?_⟩
  · have := h.ge (-k) (by rwa [Int.natAbs_neg]) (by push_cast; exact neg_le.1 hq)
    push_cast at this
    exact neg_le.1 this
  · have := h.le (-k) (by rwa [Int.natAbs_neg]) (by push_cast; exact le_neg.1 hq)
    push_cast at this
    exact le_neg.1 this

/-- magnitudes that lie on the same side of natural numbers -/
theorem beside_of_nonneg {q v : ℚ} (hq : 0 ≤ q) (hv : 0 ≤ v) (hle : ∀ n : Nat, n < 2 ^ 53 → q ≤ n → v ≤ n)
    (hge : ∀ n : Nat, n < 2 ^ 53 → n ≤ q → n ≤ v) : Beside q v := by
  refine ⟨fun k hk h => ?_, fun k hk h => ?_⟩
  · lift k to Nat using by exact_mod_cast hq.trans h
    exact hle k hk h
  · rcases le_total k 0 with h0 | h0
    · exact (Int.cast_nonpos.2 h0).trans hv
    · lift k to Nat using h0
      exact hge k hk h

theorem Beside.withSign {q v : ℚ} (h : Beside q v) (negative : Bool) :
    Beside (withSign negative q) (withSign negative v) := by
  cases negative with
  | false => exact h
  | true => exact h.neg

/-- a number that lies on the same side as `q` of each whole number between -2 ^ 53 and 2 ^ 53 -/
structure Approximates (q : ℚ) (x : Float) : Prop where
  isNumber : exact x ≠ .nan
  beside : Beside q (value x)

/-- **Rounding passes no whole number** below 2 ^ 53. -/
theorem approximates_roundWithAccuracy (s : UnpackedFloat.Sign) {m : Nat} {e : Int} (hm : m ≠ 0) (he : e ≤ grid m e) :
    Approximates (withSign (isNegative s) (m * 2 ^ e))
      (.ofModel (.pack (.roundWithAccuracy Format.binary64 s m e .exact))) := by
  obtain ⟨hx, hv⟩ := value_roundWithAccuracy s hm he
  refine ⟨hx, ?_⟩
  rw [hv]
  refine Beside.withSign (beside_of_nonneg ?_ (le_min ?_ beyond_nonneg) (fun n hn h => ?_) fun n hn h => ?_) _
  · positivity
  · positivity
  · exact (min_le_left _ _).trans (nearest_mul_le hm he hn h)
  · have hmax : (n : ℚ) ≤ beyond := by
      have hn' : (n : ℚ) ≤ 2 ^ (53 : Int) := by exact_mod_cast hn.le
      exact hn'.trans (zpow_le_zpow_right₀ (by norm_num) (by norm_num))
    exact le_min (le_nearest_mul hm he hn h) hmax

theorem log2_mul_two_pow {m : Nat} (hm : m ≠ 0) (k : Nat) : (m * 2 ^ k).log2 = m.log2 + k := by
  refine (Nat.log2_eq_iff (Nat.mul_ne_zero hm (Nat.two_pow_pos k).ne')).2 ⟨?_, ?_⟩
  · rw [Nat.pow_add]
    exact Nat.mul_le_mul_right _ (Nat.log2_self_le hm)
  · rw [Nat.add_right_comm, Nat.pow_add]
    exact Nat.mul_lt_mul_of_pos_right Nat.lt_log2_self (Nat.two_pow_pos k)

theorem mul_two_pow_zpow (m : Nat) (e : Int) (k : Nat) : ((m * 2 ^ k : Nat) * 2 ^ (e - k) : ℚ) = m * 2 ^ e := by
  have h : (k : Int) + (e - k) = e := by omega
  rw [Nat.cast_mul, Nat.cast_pow, Nat.cast_ofNat, mul_assoc, ← zpow_natCast, ← zpow_add₀ (by norm_num), h]

/-- the same for a number with any exponent, which may have to be made smaller first -/
theorem approximates_round (s : UnpackedFloat.Sign) {m : Nat} (hm : m ≠ 0) (e : Int) :
    Approximates (withSign (isNegative s) (m * 2 ^ e)) (.ofModel (.pack (.round Format.binary64 s m e))) := by
  let k := (e - grid m e).toNat
  have hround : UnpackedFloat.round Format.binary64 s m e = .roundWithAccuracy Format.binary64 s (m * 2 ^ k) (e - k) .exact := by
    show UnpackedFloat.roundWithAccuracy Format.binary64 s (m <<< k) (e - k) .exact = _
    rw [Nat.shiftLeft_eq]
  have hgrid : grid (m * 2 ^ k) (e - k) = grid m e := by
    rw [grid_eq, grid_eq, log2_mul_two_pow hm]
    push_cast
    congr 1
    omega
  rw [hround, ← mul_two_pow_zpow m e k]
  exact approximates_roundWithAccuracy s (Nat.mul_ne_zero hm (Nat.two_pow_pos k).ne') (by omega)

theorem approximates_zero (s : UnpackedFloat.Sign) : Approximates 0 (.ofModel (.pack (.zero s))) := by
  have hexact := exact_pack_zero s
  have hv : value (.ofModel (.pack (.zero s))) = 0 := by
    rw [value_of_exact hexact, Nat.cast_zero, zero_mul]
    cases isNegative s <;> simp [withSign]
  refine ⟨by rw [hexact]; exact nofun, ?_⟩
  rw [hv]
  exact ⟨fun _ _ => id, fun _ _ => id⟩

/-- **A multiple of a power of two is rounded** to a number beside it. -/
theorem approximates_normalize (n e : Int) (s : UnpackedFloat.Sign) :
    Approximates (n * 2 ^ e) (.ofModel (.pack (.normalize Format.binary64 n e s))) := by
  unfold UnpackedFloat.normalize
  split
  · next h =>
    have hneg : n < 0 := Int.compare_eq_lt.1 h
    have hn : ((-n).toNat : ℚ) = -n := by exact_mod_cast Int.toNat_of_nonneg (show 0 ≤ -n by omega)
    have h := approximates_round .negative (m := (-n).toNat) (by omega) e
    rwa [hn, neg_mul, show isNegative .negative = true from rfl, withSign, if_pos rfl, neg_neg] at h
  · next h =>
    have h0 : n = 0 := Int.compare_eq_eq.1 h
    rw [h0, Int.cast_zero, zero_mul]
    exact approximates_zero s
  · next h =>
    have hpos : 0 < n := Int.compare_eq_gt.1 h
    have hn : (n.toNat : ℚ) = n := by exact_mod_cast Int.toNat_of_nonneg hpos.le
    have h := approximates_round .positive (m := n.toNat) (by omega) e
    rwa [hn] at h

end TemplateView.Number
