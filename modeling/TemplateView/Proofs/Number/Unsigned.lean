/-
Decimals without a sign are read as numbers without a sign. Rounding gives a number the sign it is told to, a product or
quotient with a finite number of positive sign keeps the sign of the other operand, and so does packing; so whatever
`readMagnitude?` reads of a decimal without a sign is `Unsigned`, and in particular it is a number.
-/
import Mathlib.Tactic.SplitIfs
import TemplateView.Number.Decimal
import TemplateView.Proofs.Number.Bits

namespace TemplateView.Number

open Float.Model

/-- a number that is not negative, or the infinity above all numbers -/
def Unsigned (x : Float) : Prop := exact x = .infinite false ∨ ∃ m e, exact x = .finite false m e

/-! ## The sign of unpacked numbers -/

/-- an unpacked number of positive sign -/
def Positive : UnpackedFloat → Prop
  | .infinity .positive => True
  | .zero .positive => True
  | .finite .positive .. => True
  | _ => False

theorem unsigned_iff {x : Float} : Unsigned x ↔ Positive x.toModel.unpack := by
  unfold Unsigned exact
  split
  · next h =>
    rw [h]
    exact iff_of_false (by rintro (hx | ⟨_, _, hx⟩) <;> cases hx) id
  · next s h =>
    rw [h]
    cases s with
    | positive => exact iff_of_true (.inl rfl) trivial
    | negative => exact iff_of_false (by rintro (hx | ⟨_, _, hx⟩) <;> cases hx) id
  · next s h =>
    rw [h]
    cases s with
    | positive => exact iff_of_true (.inr ⟨_, _, rfl⟩) trivial
    | negative => exact iff_of_false (by rintro (hx | ⟨_, _, hx⟩) <;> cases hx) id
  · next s m e hm h =>
    rw [h]
    cases s with
    | positive => exact iff_of_true (.inr ⟨_, _, rfl⟩) trivial
    | negative => exact iff_of_false (by rintro (hx | ⟨_, _, hx⟩) <;> cases hx) id

theorem positive_dite {c : Prop} [Decidable c] {f : c → UnpackedFloat} {g : ¬ c → UnpackedFloat}
    (hf : ∀ h, Positive (f h)) (hg : ∀ h, Positive (g h)) : Positive (dite c f g) := by
  by_cases h : c
  · rw [dif_pos h]
    exact hf h
  · rw [dif_neg h]
    exact hg h

theorem positive_ite {c : Prop} [Decidable c] {f g : UnpackedFloat} (hf : Positive f) (hg : Positive g) :
    Positive (if c then f else g) :=
  positive_dite (fun _ => hf) fun _ => hg

theorem unpackSign_packComponents {spec : Float.Model.Format} {sign : UnpackedFloat.Sign} {e m} :
    UnpackedFloat.unpackSign (UnpackedFloat.packComponents spec sign e m) = sign.toBitVec := by
  ext i hi
  obtain rfl : i = 0 := by omega
  unfold UnpackedFloat.unpackSign UnpackedFloat.packComponents
  simp [BitVec.getLsbD_append, BitVec.getElem_append]

/-- parts that are not those of what is no number -/
theorem positive_unpack {e : BitVec 11} {m : BitVec 52} (h : e = -1#_ → m = 0#_) :
    Positive (.unpack Float.Model.Format.binary64 (UnpackedFloat.packComponents _ .positive e m)) := by
  let b := UnpackedFloat.packComponents Float.Model.Format.binary64 .positive e m
  have hs : UnpackedFloat.Sign.ofBitVec (UnpackedFloat.unpackSign b) = .positive := by
    rw [unpackSign_packComponents]
    rfl
  have hm : UnpackedFloat.unpackMantissa b = m := UnpackedFloat.unpackMantissa_packComponents ..
  have he : UnpackedFloat.unpackExponent b = e := UnpackedFloat.unpackExponent_packComponents ..
  show Positive (.unpack Float.Model.Format.binary64 b)
  unfold UnpackedFloat.unpack
  dsimp only
  rw [hs]
  by_cases h₁ : e = -1#_
  · rw [if_pos (he.trans h₁), if_pos (hm.trans (h h₁))]
    trivial
  · rw [if_neg (by rw [he]; exact h₁)]
    exact positive_ite (positive_dite (fun _ => trivial) fun _ => trivial) trivial

/-- **Packing keeps the sign.** -/
theorem unsigned_pack {f : UnpackedFloat} (h : Positive f) : Unsigned (.ofModel (.pack f)) := by
  rw [unsigned_iff]
  show Positive (.unpack Float.Model.Format.binary64 (UnpackedFloat.pack _ f))
  match f, h with
  | .infinity .positive, _ => exact positive_unpack fun _ => rfl
  | .zero .positive, _ => exact positive_unpack fun _ => rfl
  | .finite .positive m e _, _ =>
    unfold UnpackedFloat.pack
    dsimp only
    split_ifs with hmax
    · exact positive_unpack fun _ => rfl
    · refine positive_unpack fun he => absurd (congrArg BitVec.toNat he) ?_
      have hlt : (e + (Float.Model.Format.binary64.exponentBias : Int) + (52 : Nat)).toNat + 1 < 2 ^ 11 :=
        Nat.lt_of_not_le hmax
      have hone : (-1#11).toNat = 2047 := rfl
      rw [BitVec.toNat_ofNat, hone]
      omega
    · exact positive_unpack fun he => absurd he (by decide)

/-! ## Arithmetic -/

theorem positive_roundWithAccuracy (spec : Float.Model.Format) (m : Nat) (e : Int) (a : UnpackedFloat.Accuracy) :
    Positive (.roundWithAccuracy spec .positive m e a) := by
  unfold UnpackedFloat.roundWithAccuracy
  exact positive_dite (fun _ => trivial) fun _ => trivial

theorem positive_ofNat (spec : Float.Model.Format) (n : Nat) : Positive (.ofNat spec n) := by
  unfold UnpackedFloat.ofNat UnpackedFloat.ofInt UnpackedFloat.normalize
  split
  · next h => exact absurd (Int.compare_eq_lt.1 h) (by omega)
  · trivial
  · exact positive_roundWithAccuracy ..

/-- a finite number of positive sign that is not zero -/
def isFactor : UnpackedFloat → Bool
  | .finite .positive .. => true
  | _ => false

theorem positive_mul (spec : Float.Model.Format) {f g : UnpackedFloat} (hf : Positive f) (hg : isFactor g = true) :
    Positive (.mul spec f g) := by
  match f, hf, g, hg with
  | .infinity .positive, _, .finite .positive .., _ => trivial
  | .zero .positive, _, .finite .positive .., _ => trivial
  | .finite .positive .., _, .finite .positive .., _ => exact positive_roundWithAccuracy ..

theorem positive_div (spec : Float.Model.Format) {f g : UnpackedFloat} (hf : Positive f) (hg : isFactor g = true) :
    Positive (.div spec f g) := by
  match f, hf, g, hg with
  | .infinity .positive, _, .finite .positive .., _ => trivial
  | .zero .positive, _, .finite .positive .., _ => trivial
  | .finite .positive .., _, .finite .positive .., _ => exact positive_roundWithAccuracy ..

theorem positive_ofScientific (spec : Float.Model.Format) (m : Nat) (e : Int) : Positive (.ofScientific spec m e) := by
  unfold UnpackedFloat.ofScientific
  refine positive_dite (fun _ => trivial) fun _ => positive_ite trivial (positive_ite trivial (positive_ite ?_ ?_))
  · exact positive_mul spec trivial rfl
  · exact positive_div spec trivial rfl

theorem unsigned_mul {x y : Float} (hx : Unsigned x) (hy : isFactor y.toModel.unpack = true) : Unsigned (x * y) :=
  unsigned_pack (positive_mul _ (unsigned_iff.1 hx) hy)

theorem unsigned_div {x y : Float} (hx : Unsigned x) (hy : isFactor y.toModel.unpack = true) : Unsigned (x / y) :=
  unsigned_pack (positive_div _ (unsigned_iff.1 hx) hy)

/-! ## Decimals -/

/-- the tabulated powers of ten are factors -/
theorem isFactor_power : ∀ e : Fin 23, isFactor Float.exactlyRepresentablePowersOfTen[e].toModel.unpack = true := by
  decide +kernel

theorem unsigned_ofScientific (m : Nat) (s : Bool) (e : Nat) : Unsigned (Float.ofScientific m s e) := by
  have hm : Unsigned m.toUInt64.toFloat := unsigned_pack (positive_ofNat ..)
  unfold Float.ofScientific
  split_ifs with h hs
  · exact unsigned_div hm (isFactor_power ⟨e, by omega⟩)
  · exact unsigned_mul hm (isFactor_power ⟨e, by omega⟩)
  · exact unsigned_pack (positive_ofScientific ..)
  · exact unsigned_pack (positive_ofScientific ..)

theorem unsigned_ofDecimal (m : Nat) (e : Int) : Unsigned (ofDecimal false m e) := by
  simp only [ofDecimal, Bool.false_eq_true, if_false]
  split_ifs
  · exact unsigned_pack trivial
  · exact unsigned_pack trivial
  · exact unsigned_ofScientific ..

/-- **A decimal without a sign is read as a number without a sign.** -/
theorem unsigned_of_readMagnitude? {cs : List Char} {x : Float} (h : readMagnitude? false cs = some x) : Unsigned x := by
  simp only [readMagnitude?] at h
  obtain ⟨-, h⟩ := Option.ite_none_left_eq_some.1 h
  obtain ⟨e, -, rfl⟩ := Option.map_eq_some_iff.1 h
  exact unsigned_ofDecimal ..

end TemplateView.Number
