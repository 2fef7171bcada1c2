/-
The order of numbers is that of their values (`le_iff`, `lt_iff`): of two numbers in canonical form, the one with the larger
exponent is larger.
-/
import TemplateView.Proofs.Number.Packing

namespace TemplateView.Number

open Float.Model

/-! ## Values of unpacked numbers -/

/-- the value of an unpacked number -/
def unpackedValue : UnpackedFloat → ℚ
  | .notANumber => 0
  | .infinity s => withSign (isNegative s) beyond
  | .zero _ => 0
  | .finite s m e _ => withSign (isNegative s) (m * 2 ^ e)

theorem value_eq (x : Float) : value x = unpackedValue x.toModel.unpack := by
  unfold value exact
  cases x.toModel.unpack with
  | zero s =>
    show withSign (isNegative s) ((0 : Nat) * 2 ^ (0 : Int)) = 0
    cases s <;> simp [withSign]
  | _ => rfl

theorem exact_ne_nan {x : Float} : exact x ≠ .nan ↔ x.toModel.unpack ≠ .notANumber := by
  unfold exact
  cases x.toModel.unpack with
  | notANumber => exact ⟨fun h => absurd rfl h, fun h => absurd rfl h⟩
  | _ => exact iff_of_true (fun h => by cases h) (fun h => by cases h)

theorem isNaN_eq_false {x : Float} (h : exact x ≠ .nan) : x.isNaN = false := by
  have := exact_ne_nan.1 h
  show x.toModel.unpack.isNaN = false
  cases hu : x.toModel.unpack with
  | notANumber => exact absurd hu this
  | _ => rfl

theorem isNaN_of_exact {x : Float} (h : exact x = .nan) : x.isNaN = true := by
  show x.toModel.unpack.isNaN = true
  unfold exact at h
  cases hu : x.toModel.unpack with
  | notANumber => rfl
  | _ => rw [hu] at h; cases h

/-- an unpacked number is in canonical form -/
theorem canonical_of_unpack {x : Float} {s : UnpackedFloat.Sign} {m : Nat} {e : Int} {hp : 0 < m}
    (h : x.toModel.unpack = .finite s m e hp) : Canonical m e := by
  have hexact : exact x = .finite (isNegative s) m e := by
    unfold exact
    rw [h]
  exact canonical_of_exact hexact hp.ne'

/-! ## Order -/

theorem mul_zpow_pos {m : Nat} (hm : 0 < m) (e : Int) : (0 : ℚ) < m * 2 ^ e := by positivity

theorem beyond_pos : 0 < beyond := zpow_pos (by norm_num) _

theorem Canonical.lt_beyond {m : Nat} {e : Int} (h : Canonical m e) : (m * 2 ^ e : ℚ) < beyond :=
  mul_zpow_lt h.lt (by have := h.high; omega)

/-- the number with the larger exponent is larger -/
theorem Canonical.compare_eq {m m' : Nat} {e e' : Int} (h : Canonical m e) (h' : Canonical m' e') :
    (compare e e').then (compare m m') = compare (m * 2 ^ e : ℚ) (m' * 2 ^ e') := by
  have key : ∀ {m m' : Nat} {e e' : Int}, Canonical m e → Canonical m' e' → e < e' → (m * 2 ^ e : ℚ) < m' * 2 ^ e' := by
    intro m m' e e' h h' hlt
    have := h.low
    exact (mul_zpow_lt h.lt le_rfl).trans_le (le_mul_zpow (h'.full.resolve_left (by omega)) (by omega))
  rcases lt_trichotomy e e' with hlt | rfl | hlt
  · rw [compare_lt_iff_lt.2 hlt, compare_lt_iff_lt.2 (key h h' hlt)]
    rfl
  · have hp : (0 : ℚ) < 2 ^ e := by positivity
    rw [compare_eq_iff_eq.2 rfl, Ordering.then]
    rcases lt_trichotomy m m' with hm | rfl | hm
    · rw [compare_lt_iff_lt.2 hm, compare_lt_iff_lt.2 (mul_lt_mul_of_pos_right (Nat.cast_lt.2 hm) hp)]
    · rw [compare_eq_iff_eq.2 rfl, compare_eq_iff_eq.2 rfl]
    · rw [compare_gt_iff_gt.2 hm, compare_gt_iff_gt.2 (mul_lt_mul_of_pos_right (Nat.cast_lt.2 hm) hp)]
  · rw [compare_gt_iff_gt.2 hlt, compare_gt_iff_gt.2 (key h' h hlt)]
    rfl

theorem compare_neg_neg (a b : ℚ) : compare (-a) (-b) = (compare a b).swap := by
  rcases lt_trichotomy a b with h | rfl | h
  · rw [compare_gt_iff_gt.2 (neg_lt_neg h), compare_lt_iff_lt.2 h]
    rfl
  · rw [compare_eq_iff_eq.2 rfl, compare_eq_iff_eq.2 rfl]
    rfl
  · rw [compare_lt_iff_lt.2 (neg_lt_neg h), compare_gt_iff_gt.2 h]
    rfl

/-- **Numbers are compared by value.** -/
theorem compare_unpack {x y : Float} (hx : exact x ≠ .nan) (hy : exact y ≠ .nan) :
    x.toModel.unpack.compare y.toModel.unpack = some (compare (value x) (value y)) := by
  have lt : ∀ {a b : ℚ}, a < b → some .lt = some (compare a b) := fun h => congrArg some (compare_lt_iff_lt.2 h).symm
  have eq : ∀ {a : ℚ}, some .eq = some (compare a a) := congrArg some (compare_eq_iff_eq.2 rfl).symm
  have gt : ∀ {a b : ℚ}, b < a → some .gt = some (compare a b) := fun h => congrArg some (compare_gt_iff_gt.2 h).symm
  have hb := beyond_pos
  rw [exact_ne_nan] at hx hy
  rw [value_eq, value_eq]
  cases hu : x.toModel.unpack with
  | notANumber => exact absurd hu hx
  | infinity s =>
    cases hv : y.toModel.unpack with
    | notANumber => exact absurd hv hy
    | infinity t => cases s <;> cases t <;> first | exact eq | exact lt (neg_lt_self hb) | exact gt (neg_lt_self hb)
    | zero t => cases s <;> first | exact lt (neg_neg_of_pos hb) | exact gt hb
    | finite t m e hm =>
      have hm := mul_zpow_pos hm e
      have hlt := (canonical_of_unpack hv).lt_beyond
      cases s
      · cases t
        · exact lt (neg_lt_neg hlt)
        · exact lt ((neg_neg_of_pos hb).trans hm)
      · cases t
        · exact gt ((neg_neg_of_pos hm).trans hb)
        · exact gt hlt
  | zero s =>
    cases hv : y.toModel.unpack with
    | notANumber => exact absurd hv hy
    | infinity t => cases t <;> first | exact lt hb | exact gt (neg_neg_of_pos hb)
    | zero t => exact eq
    | finite t m e hm =>
      have hm := mul_zpow_pos hm e
      cases t
      · exact gt (neg_neg_of_pos hm)
      · exact lt hm
  | finite s m e hm =>
    have hm := mul_zpow_pos hm e
    have hc := canonical_of_unpack hu
    cases hv : y.toModel.unpack with
    | notANumber => exact absurd hv hy
    | infinity t =>
      have hlt := hc.lt_beyond
      cases s
      · cases t
        · exact gt (neg_lt_neg hlt)
        · exact lt ((neg_neg_of_pos hm).trans hb)
      · cases t
        · exact gt ((neg_neg_of_pos hb).trans hm)
        · exact lt hlt
    | zero t =>
      cases s
      · exact lt (neg_neg_of_pos hm)
      · exact gt hm
    | finite t m' e' hm' =>
      have hm' := mul_zpow_pos hm' e'
      have hcompare := hc.compare_eq (canonical_of_unpack hv)
      cases s
      · cases t
        · exact congrArg some ((congrArg Ordering.swap hcompare).trans (compare_neg_neg _ _).symm)
        · exact lt ((neg_neg_of_pos hm).trans hm')
      · cases t
        · exact gt ((neg_neg_of_pos hm').trans hm)
        · exact congrArg some hcompare

theorem lt_iff {x y : Float} (hx : exact x ≠ .nan) (hy : exact y ≠ .nan) : x < y ↔ value x < value y := by
  have h : x < y ↔ (x.toModel.unpack.compare y.toModel.unpack == some .lt) = true := by
    show decide ((x.toModel.unpack.compare y.toModel.unpack == some .lt) = true) = true ↔ _
    rw [decide_eq_true_iff]
  rw [h, compare_unpack hx hy, beq_iff_eq, Option.some_inj, compare_lt_iff_lt]

theorem le_iff {x y : Float} (hx : exact x ≠ .nan) (hy : exact y ≠ .nan) : x ≤ y ↔ value x ≤ value y := by
  have h : x ≤ y ↔ (x.toModel.unpack.compare y.toModel.unpack).any Ordering.isLE = true := by
    show decide ((x.toModel.unpack.compare y.toModel.unpack).any Ordering.isLE = true) = true ↔ _
    rw [decide_eq_true_iff]
  rw [h, compare_unpack hx hy, Option.any_some, ← compare_le_iff_le]
  exact Ordering.isLE_iff_ne_gt

/-- the smaller of two numbers -/
theorem value_min {x y : Float} (hx : exact x ≠ .nan) (hy : exact y ≠ .nan) :
    exact (min x y) ≠ .nan ∧ value (min x y) = min (value x) (value y) := by
  have hmin : min x y = if x ≤ y then x else y := rfl
  rw [hmin]
  split
  · next h => exact ⟨hx, (min_eq_left ((le_iff hx hy).1 h)).symm⟩
  · next h => exact ⟨hy, (min_eq_right (le_of_not_ge (mt (le_iff hx hy).2 h))).symm⟩

/-- the larger of two numbers -/
theorem value_max {x y : Float} (hx : exact x ≠ .nan) (hy : exact y ≠ .nan) :
    exact (max x y) ≠ .nan ∧ value (max x y) = max (value x) (value y) := by
  have hmax : max x y = if x ≤ y then y else x := rfl
  rw [hmax]
  split
  · next h => exact ⟨hy, (max_eq_right ((le_iff hx hy).1 h)).symm⟩
  · next h => exact ⟨hx, (max_eq_left (le_of_not_ge (mt (le_iff hx hy).2 h))).symm⟩

end TemplateView.Number
