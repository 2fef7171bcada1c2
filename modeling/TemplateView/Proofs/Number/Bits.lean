/-
Numbers by their bits. A number is a sign, eleven bits of exponent and fifty-two bits of fraction, and its exact value is
read off these (`exact_eq`): so a number is its exact value (`eq_of_exact`), and mantissa and exponent are in the form
that `Canonical` describes.
-/
import Mathlib.Algebra.Ring.Nat
import Mathlib.Tactic.SplitIfs
import TemplateView.Number.Exact

namespace TemplateView.Number

open Float.Model

/-! ## Parts -/

/-- the fraction bits of a number -/
def fraction (x : Float) : Nat := x.toModel.toBits.toNat % 2 ^ 52

/-- the exponent bits of a number -/
def biased (x : Float) : Nat := x.toModel.toBits.toNat / 2 ^ 52 % 2 ^ 11

/-- the sign bit of a number -/
def signBit (x : Float) : Nat := x.toModel.toBits.toNat / 2 ^ 63

theorem toNat_unpackMantissa (b : BitVec 64) :
    (@UnpackedFloat.unpackMantissa Format.binary64 b).toNat = b.toNat % 2 ^ 52 := by
  simp [UnpackedFloat.unpackMantissa]

theorem toNat_unpackExponent (b : BitVec 64) :
    (@UnpackedFloat.unpackExponent Format.binary64 b).toNat = b.toNat / 2 ^ 52 % 2 ^ 11 := by
  simp [UnpackedFloat.unpackExponent, Nat.shiftRight_eq_div_pow]

theorem toNat_unpackSign (b : BitVec 64) :
    (@UnpackedFloat.unpackSign Format.binary64 b).toNat = b.toNat / 2 ^ 63 := by
  have := b.isLt
  unfold UnpackedFloat.unpackSign
  simp [Nat.shiftRight_eq_div_pow]
  omega

theorem isNegative_ofBitVec (b : BitVec 1) : isNegative (UnpackedFloat.Sign.ofBitVec b) = decide (b.toNat = 1) := by
  have hb : b = 0#1 ∨ b = 1#1 := by
    have := b.isLt
    rw [← BitVec.toNat_inj, ← BitVec.toNat_inj]
    simp
    omega
  rcases hb with rfl | rfl <;> rfl

theorem bitVec_eq_iff {w n k : Nat} {b c : BitVec w} (hb : b.toNat = n) (hc : c.toNat = k) : b = c ↔ n = k := by
  rw [← BitVec.toNat_inj, hb, hc]

/-- the exact value of a number, from the parts of its bits -/
theorem exact_eq (x : Float) : exact x =
    if biased x = 2047 then (if fraction x = 0 then .infinite (decide (signBit x = 1)) else .nan)
    else if biased x = 0 then .finite (decide (signBit x = 1)) (fraction x) (if fraction x = 0 then 0 else -1074)
    else .finite (decide (signBit x = 1)) (2 ^ 52 + fraction x) (biased x - 1075) := by
  have hm : (@UnpackedFloat.unpackMantissa Format.binary64 x.toModel.toBits.toBitVec).toNat = fraction x :=
    toNat_unpackMantissa _
  have he : (@UnpackedFloat.unpackExponent Format.binary64 x.toModel.toBits.toBitVec).toNat = biased x :=
    toNat_unpackExponent _
  have hs : isNegative (UnpackedFloat.Sign.ofBitVec
      (@UnpackedFloat.unpackSign Format.binary64 x.toModel.toBits.toBitVec)) = decide (signBit x = 1) := by
    rw [isNegative_ofBitVec, toNat_unpackSign]
    rfl
  have hmax : @UnpackedFloat.unpackExponent Format.binary64 x.toModel.toBits.toBitVec = -1#_ ↔ biased x = 2047 :=
    bitVec_eq_iff he rfl
  have hzero : @UnpackedFloat.unpackExponent Format.binary64 x.toModel.toBits.toBitVec = 0#_ ↔ biased x = 0 :=
    bitVec_eq_iff he rfl
  have hfrac : @UnpackedFloat.unpackMantissa Format.binary64 x.toModel.toBits.toBitVec = 0#_ ↔ fraction x = 0 :=
    bitVec_eq_iff hm rfl
  have hbias : (Format.binary64.exponentBias : Int) + (52 : Nat) = 1075 := rfl
  unfold exact Float.Model.unpack UnpackedFloat.unpack
  by_cases h₁ : biased x = 2047
  · by_cases h₂ : fraction x = 0
    · rw [if_pos (hmax.2 h₁), if_pos (hfrac.2 h₂), if_pos h₁, if_pos h₂]
      dsimp only
      rw [hs]
    · rw [if_pos (hmax.2 h₁), if_neg (mt hfrac.1 h₂), if_pos h₁, if_neg h₂]
  by_cases h₀ : biased x = 0
  · by_cases h₂ : fraction x = 0
    · rw [if_neg (mt hmax.1 h₁), if_pos (hzero.2 h₀), dif_pos (hfrac.2 h₂), if_neg h₁, if_pos h₀, if_pos h₂]
      dsimp only
      rw [hs, h₂]
    · rw [if_neg (mt hmax.1 h₁), if_pos (hzero.2 h₀), dif_neg (mt hfrac.1 h₂), if_neg h₁, if_pos h₀, if_neg h₂]
      dsimp only
      rw [hs, hm, he, hbias, h₀]
      rfl
  · have hlt : fraction x < 2 ^ 52 := Nat.mod_lt _ (by decide)
    have hone : (1#1 ++ @UnpackedFloat.unpackMantissa Format.binary64 x.toModel.toBits.toBitVec).toNat =
        2 ^ 52 + fraction x := by
      rw [BitVec.toNat_append, hm, Nat.shiftLeft_eq]
      exact (Nat.two_pow_add_eq_or_of_lt hlt 1).symm
    rw [if_neg (mt hmax.1 h₁), if_neg (mt hzero.1 h₀), if_neg h₁, if_neg h₀]
    dsimp only
    rw [hs, he, hone, hbias]

/-- the bits are their parts -/
theorem toNat_toBits (x : Float) :
    x.toModel.toBits.toNat = signBit x * 2 ^ 63 + biased x * 2 ^ 52 + fraction x := by
  unfold signBit biased fraction
  omega

theorem signBit_le (x : Float) : signBit x ≤ 1 := by
  have := x.toModel.toBits.toNat_lt
  unfold signBit
  omega

theorem eq_of_toNat {x y : Float} (h : x.toModel.toBits.toNat = y.toModel.toBits.toNat) : x = y := by
  have hb := UInt64.toNat_inj.1 h
  rcases x with ⟨⟨b, hx⟩⟩
  rcases y with ⟨⟨c, hy⟩⟩
  obtain rfl : b = c := hb
  rfl

theorem fraction_lt (x : Float) : fraction x < 2 ^ 52 := Nat.mod_lt _ (by decide)

/-- **A number is its exact value**, if it has one. -/
theorem eq_of_exact {x y : Float} (hn : exact x ≠ .nan) (h : exact x = exact y) : x = y := by
  have hx := signBit_le x
  have hy := signBit_le y
  have hx' := fraction_lt x
  have hy' := fraction_lt y
  have hparts : signBit x = signBit y ∧ biased x = biased y ∧ fraction x = fraction y := by
    rw [exact_eq] at hn
    rw [exact_eq x, exact_eq y] at h
    split_ifs at h hn <;> simp at h hn <;> omega
  apply eq_of_toNat
  rw [toNat_toBits, toNat_toBits, hparts.1, hparts.2.1, hparts.2.2]

/-- a mantissa and an exponent as numbers have them: the exponent is as small as the size of a mantissa allows -/
structure Canonical (m : Nat) (e : Int) : Prop where
  pos : 0 < m
  lt : m < 2 ^ 53
  low : -1074 ≤ e
  high : e ≤ 971
  full : e = -1074 ∨ 2 ^ 52 ≤ m

theorem canonical_of_exact {x : Float} {s : Bool} {m : Nat} {e : Int} (h : exact x = .finite s m e) (hm : m ≠ 0) :
    Canonical m e := by
  have hf := fraction_lt x
  have hb : biased x < 2 ^ 11 := Nat.mod_lt _ (by decide)
  rw [exact_eq] at h
  split_ifs at h <;> simp at h <;> exact ⟨by omega, by omega, by omega, by omega, by omega⟩

theorem exponent_of_zero {x : Float} {s : Bool} {e : Int} (h : exact x = .finite s 0 e) : e = 0 := by
  rw [exact_eq] at h
  split_ifs at h <;> simp at h <;> omega

end TemplateView.Number
