/-
Packing and the value of a number. Packing keeps a number in canonical form and makes an infinity of one beyond the range,
so the value of what is packed is the value that it had, cut off at the infinities (`value_pack`).
-/
import Mathlib.Algebra.Order.Field.Power
import Mathlib.Algebra.Order.Ring.Rat
import Mathlib.Data.Rat.Cast.Order
import Mathlib.Tactic.Linarith
import Mathlib.Tactic.Positivity
import Mathlib.Tactic.Ring
import TemplateView.Proofs.Number.Unsigned

namespace TemplateView.Number

open Float.Model

/-! ## Packing -/

theorem decide_toBitVec (s : UnpackedFloat.Sign) : decide (s.toBitVec.toNat = 1) = isNegative s := by
  cases s <;> rfl

/-- the exact value of packed parts -/
theorem exact_packComponents {x : Float} {s : UnpackedFloat.Sign} {e : BitVec 11} {m : BitVec 52}
    (h : x.toModel.toBits.toBitVec = UnpackedFloat.packComponents Format.binary64 s e m) : exact x =
      if e.toNat = 2047 then (if m.toNat = 0 then .infinite (isNegative s) else .nan)
      else if e.toNat = 0 then .finite (isNegative s) m.toNat (if m.toNat = 0 then 0 else -1074)
      else .finite (isNegative s) (2 ^ 52 + m.toNat) (e.toNat - 1075) := by
  have hm : (UnpackedFloat.unpackMantissa (UnpackedFloat.packComponents Format.binary64 s e m)).toNat = m.toNat :=
    congrArg BitVec.toNat UnpackedFloat.unpackMantissa_packComponents
  have he : (UnpackedFloat.unpackExponent (UnpackedFloat.packComponents Format.binary64 s e m)).toNat = e.toNat :=
    congrArg BitVec.toNat UnpackedFloat.unpackExponent_packComponents
  have hs : (UnpackedFloat.unpackSign (UnpackedFloat.packComponents Format.binary64 s e m)).toNat = s.toBitVec.toNat :=
    congrArg BitVec.toNat unpackSign_packComponents
  rw [toNat_unpackMantissa, ← h] at hm
  rw [toNat_unpackExponent, ← h] at he
  rw [toNat_unpackSign, ← h] at hs
  rw [exact_eq, ← decide_toBitVec, ← hm, ← he, ← hs]
  rfl

theorem exact_pack_zero (s : UnpackedFloat.Sign) :
    exact (.ofModel (.pack (.zero s))) = .finite (isNegative s) 0 0 :=
  exact_packComponents (e := 0) (m := 0) rfl

theorem exact_pack_infinity (s : UnpackedFloat.Sign) :
    exact (.ofModel (.pack (.infinity s))) = .infinite (isNegative s) :=
  exact_packComponents (e := -1#_) (m := 0) rfl

/-- a finite number beyond the range becomes an infinity -/
theorem exact_pack_of_lt {s : UnpackedFloat.Sign} {m : Nat} {e : Int} (hp : 0 < m) (he : 971 < e) :
    exact (.ofModel (.pack (.finite s m e hp))) = .infinite (isNegative s) := by
  refine exact_packComponents (e := -1#_) (m := 0) ?_
  show UnpackedFloat.pack Format.binary64 (.finite s m e hp) = _
  have hbias : (Format.binary64.exponentBias : Int) = 1023 := rfl
  have hlarge : 2 ^ 11 ≤ (e + (Format.binary64.exponentBias : Int) + (52 : Nat)).toNat + 1 := by omega
  unfold UnpackedFloat.pack
  exact if_pos hlarge

theorem log2_eq_of_full {m : Nat} (hl : 2 ^ 52 ≤ m) (hm : m < 2 ^ 53) : m.log2 = 52 :=
  (Nat.log2_eq_iff (by omega)).2 ⟨hl, hm⟩

/-- **A number in canonical form is kept.** -/
theorem exact_pack_finite {s : UnpackedFloat.Sign} {m : Nat} {e : Int} (hp : 0 < m) (hc : Canonical m e) :
    exact (.ofModel (.pack (.finite s m e hp))) = .finite (isNegative s) m e := by
  have hlt := hc.lt
  have hlow := hc.low
  have hhigh := hc.high
  have hfull := hc.full
  have hbias : (Format.binary64.exponentBias : Int) = 1023 := rfl
  have hbits : Format.binary64.mantissaBits = 53 := rfl
  let b := (e + (Format.binary64.exponentBias : Int) + (52 : Nat)).toNat
  have hb : b = (e + 1075).toNat := by show (e + _ + _).toNat = _; rw [hbias]; congr 1; omega
  have hsmall : ¬ 2 ^ 11 ≤ b + 1 := by omega
  by_cases hl : 2 ^ 52 ≤ m
  · -- a mantissa of full size is stored without its first bit
    have hpack : UnpackedFloat.pack Format.binary64 (.finite s m e hp) =
        UnpackedFloat.packComponents _ s (BitVec.ofNat 11 b) (BitVec.ofNat 52 m) := by
      unfold UnpackedFloat.pack
      dsimp only
      rw [if_neg hsmall, if_pos (by rw [log2_eq_of_full hl hlt, hbits])]
    rw [exact_packComponents hpack, BitVec.toNat_ofNat, BitVec.toNat_ofNat, if_neg (by omega), if_neg (by omega)]
    congr 1 <;> omega
  · -- a smaller one has the lowest exponent, stored as zero
    have hlog : ¬ m.log2 + 1 = Format.binary64.mantissaBits := by
      rw [hbits]
      have := (Nat.log2_lt (by omega)).2 (Nat.lt_of_not_le hl)
      omega
    have hpack : UnpackedFloat.pack Format.binary64 (.finite s m e hp) =
        UnpackedFloat.packComponents _ s 0#11 (BitVec.ofNat 52 m) := by
      unfold UnpackedFloat.pack
      dsimp only
      rw [if_neg hsmall, if_neg hlog]
    rw [exact_packComponents hpack, BitVec.toNat_ofNat, BitVec.toNat_ofNat, Nat.zero_mod, if_neg (by decide), if_pos rfl]
    congr 1
    · omega
    · rw [if_neg (by omega)]
      omega

/-! ## Values -/

/-- a magnitude with a sign -/
def withSign (negative : Bool) (q : ℚ) : ℚ := if negative then -q else q

/-- what an infinity counts as; no finite number is as large -/
def beyond : ℚ := 2 ^ (1024 : Int)

theorem beyond_nonneg : 0 ≤ beyond := zpow_nonneg (by norm_num) _

/-- the value of a number, zero for what is none -/
def value (x : Float) : ℚ :=
  match exact x with
  | .nan => 0
  | .infinite negative => withSign negative beyond
  | .finite negative m e => withSign negative (m * 2 ^ e)

theorem value_of_exact {x : Float} {negative : Bool} {m : Nat} {e : Int} (h : exact x = .finite negative m e) :
    value x = withSign negative (m * 2 ^ e) := by
  rw [value, h]

theorem value_of_infinite {x : Float} {negative : Bool} (h : exact x = .infinite negative) :
    value x = withSign negative beyond := by
  rw [value, h]

/-- the magnitude of a number in canonical form, with an exponent of any size -/
theorem mul_zpow_lt {m : Nat} {e k : Int} (hm : m < 2 ^ 53) (he : e + 53 ≤ k) : (m * 2 ^ e : ℚ) < 2 ^ k := by
  have hlt : (m : ℚ) < 2 ^ (53 : Int) := by exact_mod_cast hm
  calc (m * 2 ^ e : ℚ) < 2 ^ (53 : Int) * 2 ^ e := mul_lt_mul_of_pos_right hlt (by positivity)
    _ = 2 ^ (e + 53) := by rw [← zpow_add₀ (by norm_num), add_comm]
    _ ≤ 2 ^ k := zpow_le_zpow_right₀ (by norm_num) he

theorem le_mul_zpow {m : Nat} {e k : Int} (hm : 2 ^ 52 ≤ m) (he : k ≤ e + 52) : (2 ^ k : ℚ) ≤ m * 2 ^ e := by
  have hle : (2 : ℚ) ^ (52 : Int) ≤ m := by exact_mod_cast hm
  calc (2 ^ k : ℚ) ≤ 2 ^ (e + 52) := zpow_le_zpow_right₀ (by norm_num) he
    _ = 2 ^ (52 : Int) * 2 ^ e := by rw [← zpow_add₀ (by norm_num), add_comm]
    _ ≤ m * 2 ^ e := mul_le_mul_of_nonneg_right hle (by positivity)

theorem mul_zpow_le_beyond {m : Nat} {e : Int} (hm : m < 2 ^ 53) (he : e ≤ 971) : (m * 2 ^ e : ℚ) ≤ beyond :=
  (mul_zpow_lt hm (show e + 53 ≤ 1024 by omega)).le

theorem beyond_le_mul_zpow {m : Nat} {e : Int} (hm : 2 ^ 52 ≤ m) (he : 971 < e) : beyond ≤ m * 2 ^ e :=
  le_mul_zpow hm (show (1024 : Int) ≤ e + 52 by omega)

/-- packing cuts a magnitude off at the infinity -/
theorem value_pack {s : UnpackedFloat.Sign} {m : Nat} {e : Int} (hp : 0 < m) (hm : m < 2 ^ 53) (hlow : -1074 ≤ e)
    (hfull : e = -1074 ∨ 2 ^ 52 ≤ m) :
    exact (.ofModel (.pack (.finite s m e hp))) ≠ .nan ∧
      value (.ofModel (.pack (.finite s m e hp))) = withSign (isNegative s) (min (m * 2 ^ e) beyond) := by
  by_cases he : e ≤ 971
  · have hexact := exact_pack_finite (s := s) hp ⟨hp, hm, hlow, he, hfull⟩
    rw [value_of_exact hexact, hexact, min_eq_left (mul_zpow_le_beyond hm he)]
    exact ⟨nofun, rfl⟩
  · have hexact := exact_pack_of_lt (s := s) hp (not_le.1 he)
    rw [value_of_infinite hexact, hexact, min_eq_right (beyond_le_mul_zpow (hfull.resolve_left (by omega)) (not_le.1 he))]
    exact ⟨nofun, rfl⟩

end TemplateView.Number
