/-
Pieces of sequences. The bounds of `slice` and `substring` pass through floating-point numbers, which are exact for sequences
of fewer than 2 ^ 53 items: so the ranges lie within the sequence (`sliceRange_within`, `substringRange_within`), and a whole
number splits it where it says (`sliceBound_of_approximates`, `substringBound_of_approximates`). `pieces_of_sequence` says so
of the methods of texts and arrays.
-/
import TemplateView.Value.Methods
import TemplateView.Proofs.Number.Whole

namespace TemplateView.Value

open Number

variable {α : Type} {n : Nat}

/-! ## Bounds -/

theorem position_eq {x : Float} (hx : exact x ≠ .nan) (h : value x ≤ n) (hn : n < 2 ^ 53) :
    position x = ⌊value x⌋₊ := by
  have hn' : (n : ℚ) < 2 ^ 64 := by exact_mod_cast hn.trans (by norm_num)
  exact toNat_toUInt64 hx (h.trans_lt hn')

theorem exact_zero : exact (0 : Float) ≠ .nan ∧ value 0 = 0 := by
  have h := approximates_ofNat 0
  exact ⟨h.isNumber, (h.value_eq (k := 0) (by decide)).trans Int.cast_zero⟩

theorem exact_length (hn : n < 2 ^ 53) : exact (Float.ofNat n) ≠ .nan ∧ value (Float.ofNat n) = n := by
  have h := approximates_ofNat n
  exact ⟨h.isNumber, h.value_eq (k := n) hn⟩

/-- the number of items less a negative number, as it is rounded -/
theorem approximates_fromEnd (hn : n < 2 ^ 53) {x : Float} (hx : exact x ≠ .nan) :
    Approximates (n + value x) (Float.ofNat n + x) :=
  approximates_add (exact_length hn).1 (exact_length hn).2 hn hx

theorem sliceBound_of_nonneg (hn : n < 2 ^ 53) {x : Float} (hx : exact x ≠ .nan) (h : 0 ≤ value x) :
    sliceBound n x = ⌊min (value x) n⌋₊ := by
  obtain ⟨hz, hz'⟩ := exact_zero
  obtain ⟨hl, hl'⟩ := exact_length hn
  obtain ⟨hm, hm'⟩ := value_min hx hl
  have hneg : ¬ x < 0 := by rw [lt_iff hx hz, hz']; exact not_lt.2 h
  rw [hl'] at hm'
  rw [sliceBound, isNaN_eq_false hx, if_neg Bool.false_ne_true, if_neg hneg,
    position_eq hm (hm'.trans_le (min_le_right _ _)) hn, hm']

theorem sliceBound_of_neg (hn : n < 2 ^ 53) {x : Float} (hx : exact x ≠ .nan) (h : value x < 0) :
    sliceBound n x = ⌊value (Float.ofNat n + x)⌋₊ := by
  obtain ⟨hz, hz'⟩ := exact_zero
  have hsum := approximates_fromEnd hn hx
  obtain ⟨hm, hm'⟩ := value_max hsum.isNumber hz
  have hneg : x < 0 := by rwa [lt_iff hx hz, hz']
  -- rounding the sum does not take it above the number of items
  have hle : value (Float.ofNat n + x) ≤ n := hsum.beside.le n hn (by push_cast; linarith)
  rw [hz'] at hm'
  rw [sliceBound, isNaN_eq_false hx, if_neg Bool.false_ne_true, if_pos hneg,
    position_eq hm (hm'.trans_le (max_le hle n.cast_nonneg)) hn, hm']
  rcases le_total (value (Float.ofNat n + x)) 0 with h0 | h0
  · rw [max_eq_right h0, Nat.floor_zero, Nat.floor_of_nonpos h0]
  · rw [max_eq_left h0]

theorem sliceBound_le (hn : n < 2 ^ 53) (x : Float) : sliceBound n x ≤ n := by
  by_cases hx : exact x = .nan
  · rw [sliceBound, isNaN_of_exact hx, if_pos rfl]
    exact Nat.zero_le n
  · rcases lt_or_ge (value x) 0 with h | h
    · rw [sliceBound_of_neg hn hx h]
      exact Nat.floor_le_of_le ((approximates_fromEnd hn hx).beside.le n hn (by push_cast; linarith))
    · rw [sliceBound_of_nonneg hn hx h]
      exact Nat.floor_le_of_le (min_le_right _ _)

/-- where `slice` splits at a whole number, which counts from the end if it is negative -/
def sliceSplit (n : Nat) (k : Int) : Nat :=
  (if k < 0 then n + k else min k n).toNat

theorem floor_intCast (k : Int) : ⌊(k : ℚ)⌋₊ = k.toNat := by
  rw [← Int.floor_toNat, Int.floor_intCast]

/-- **A whole number splits where it says.** -/
theorem sliceBound_of_approximates (hn : n < 2 ^ 53) {x : Float} {k : Int} (h : Approximates k x) :
    sliceBound n x = sliceSplit n k := by
  unfold sliceSplit
  split
  · next hk =>
    have hneg : value x ≤ (-1 : Int) := h.beside.le (-1) (by decide) (by exact_mod_cast Int.le_sub_one_of_lt hk)
    have hneg' : value x < 0 := hneg.trans_lt (by norm_num)
    have hsum := approximates_fromEnd hn h.isNumber
    rw [sliceBound_of_neg hn h.isNumber hneg']
    rcases le_or_gt (n + k) 0 with h0 | h0
    · -- before the first item
      have hle : value x ≤ (-n : Int) := h.beside.le (-n) (by omega) (by exact_mod_cast (show k ≤ -n by omega))
      have hle' : value (Float.ofNat n + x) ≤ (0 : Int) := hsum.beside.le 0 (by decide) (by push_cast at hle ⊢; linarith)
      rw [Nat.floor_of_nonpos (by exact_mod_cast hle'), Int.toNat_of_nonpos h0]
    · have hx := h.value_eq (by omega)
      rw [hx, ← Int.cast_natCast, ← Int.cast_add] at hsum
      rw [hsum.value_eq (by omega), floor_intCast]
  · next hk =>
    have hpos : ((0 : Int) : ℚ) ≤ value x := h.beside.ge 0 (by decide) (by exact_mod_cast not_lt.1 hk)
    rw [Int.cast_zero] at hpos
    rw [sliceBound_of_nonneg hn h.isNumber hpos]
    rcases le_or_gt (n : Int) k with hle | hlt
    · -- behind the last item
      have hle' : ((n : Int) : ℚ) ≤ value x := h.beside.ge n hn (by exact_mod_cast hle)
      rw [Int.cast_natCast] at hle'
      rw [min_eq_right hle', min_eq_right hle, Nat.floor_natCast, Int.toNat_natCast]
    · have hx := h.value_eq (by omega)
      have hlt' : (k : ℚ) ≤ n := by exact_mod_cast hlt.le
      rw [hx, min_eq_left hlt', min_eq_left hlt.le, floor_intCast]

theorem substringBound_eq (hn : n < 2 ^ 53) {x : Float} (hx : exact x ≠ .nan) :
    substringBound n x = ⌊min (max (value x) 0) n⌋₊ := by
  obtain ⟨hz, hz'⟩ := exact_zero
  obtain ⟨hl, hl'⟩ := exact_length hn
  obtain ⟨hm, hm'⟩ := value_max hx hz
  obtain ⟨hc, hc'⟩ := value_min hm hl
  rw [hm', hz', hl'] at hc'
  rw [substringBound, isNaN_eq_false hx, if_neg Bool.false_ne_true, position_eq hc (hc'.trans_le (min_le_right _ _)) hn,
    hc']

theorem substringBound_le (hn : n < 2 ^ 53) (x : Float) : substringBound n x ≤ n := by
  by_cases hx : exact x = .nan
  · rw [substringBound, isNaN_of_exact hx, if_pos rfl]
    exact Nat.zero_le n
  · rw [substringBound_eq hn hx]
    exact Nat.floor_le_of_le (min_le_right _ _)

/-- where `substring` splits at a whole number -/
def substringSplit (n : Nat) (k : Int) : Nat := min k.toNat n

theorem substringBound_of_approximates (hn : n < 2 ^ 53) {x : Float} {k : Int} (h : Approximates k x) :
    substringBound n x = substringSplit n k := by
  rw [substringBound_eq hn h.isNumber, substringSplit]
  rcases le_or_gt k 0 with hk | hk
  · have hle : value x ≤ (0 : Int) := h.beside.le 0 (by decide) (by exact_mod_cast hk)
    rw [Int.cast_zero] at hle
    rw [max_eq_right hle, min_eq_left n.cast_nonneg, Nat.floor_zero, Int.toNat_of_nonpos hk, Nat.zero_min]
  · rcases le_or_gt (n : Int) k with hle | hlt
    · have hle' : ((n : Int) : ℚ) ≤ value x := h.beside.ge n hn (by exact_mod_cast hle)
      rw [Int.cast_natCast] at hle'
      rw [min_eq_right (hle'.trans (le_max_left _ _)), Nat.floor_natCast, min_eq_right (by omega)]
    · have hx := h.value_eq (by omega)
      have hpos : (0 : ℚ) ≤ k := by exact_mod_cast hk.le
      have hlt' : (k : ℚ) ≤ n := by exact_mod_cast hlt.le
      rw [hx, max_eq_left hpos, min_eq_left hlt', floor_intCast, min_eq_left (by omega)]

/-! ## Ranges -/

/-- a range that lies within a sequence of `n` items -/
def Range.Within (r : Range) (n : Nat) : Prop := r.start ≤ r.finish ∧ r.finish ≤ n

theorem boundOr_le {default : Nat} {bound : Float → Nat} (hd : default ≤ n) (hb : ∀ x, bound x ≤ n) (v : Value) :
    boundOr default bound v ≤ n := by
  cases v with
  | null => exact hd
  | _ => exact hb _

/-- **The range of `slice` lies within the sequence.** -/
theorem sliceRange_within (hn : n < 2 ^ 53) (a b : Value) : (sliceRange n a b).Within n :=
  ⟨Nat.le_max_left _ _, Nat.max_le.2
    ⟨boundOr_le (Nat.zero_le n) (sliceBound_le hn) a, boundOr_le le_rfl (sliceBound_le hn) b⟩⟩

/-- **The range of `substring` lies within the sequence.** -/
theorem substringRange_within (hn : n < 2 ^ 53) (a b : Value) : (substringRange n a b).Within n :=
  ⟨(Nat.min_le_left _ _).trans (Nat.le_max_left _ _), Nat.max_le.2
    ⟨substringBound_le hn _, boundOr_le le_rfl (substringBound_le hn) b⟩⟩

/-- a run of items: those in a range that lies within them -/
structure Run (items : List α) (r : Range) (run : List α) : Prop where
  within : r.Within items.length
  between : items.take r.start ++ run ++ items.drop r.finish = items

theorem run_cut {items : List α} {r : Range} (h : r.Within items.length) : Run items r (cut r items) := by
  refine ⟨h, ?_⟩
  have hfront : items.take r.start = (items.take r.finish).take r.start := by rw [List.take_take, min_eq_left h.1]
  rw [cut, hfront, List.take_append_drop, List.take_append_drop]

/-! ## Methods -/

theorem sliceBound_ofInt (hn : n < 2 ^ 53) (k : Int) : sliceBound n (.ofInt k) = sliceSplit n k :=
  sliceBound_of_approximates hn (approximates_ofInt k)

theorem substringBound_ofInt (hn : n < 2 ^ 53) (k : Int) : substringBound n (.ofInt k) = substringSplit n k :=
  substringBound_of_approximates hn (approximates_ofInt k)

theorem sliceRange_front (hn : n < 2 ^ 53) (k : Int) :
    sliceRange n (number 0) (number (.ofInt k)) = ⟨0, sliceSplit n k⟩ := by
  have hzero : sliceBound n 0 = 0 := (sliceBound_ofInt hn 0).trans (by simp [sliceSplit])
  simp only [sliceRange, boundOr, toNumber, hzero, sliceBound_ofInt hn, Nat.zero_max]

theorem sliceRange_back (hn : n < 2 ^ 53) (k : Int) : sliceRange n (number (.ofInt k)) null = ⟨sliceSplit n k, n⟩ := by
  have hle : sliceSplit n k ≤ n := sliceBound_ofInt hn k ▸ sliceBound_le hn _
  simp only [sliceRange, boundOr, toNumber, sliceBound_ofInt hn, max_eq_right hle]

/-- the range of `substring` between two whole numbers -/
theorem substringRange_ofInt (hn : n < 2 ^ 53) (j k : Int) :
    substringRange n (number (.ofInt j)) (number (.ofInt k)) =
      ⟨min (substringSplit n j) (substringSplit n k), max (substringSplit n j) (substringSplit n k)⟩ := by
  simp only [substringRange, boundOr, toNumber, substringBound_ofInt hn]

theorem substringRange_front (hn : n < 2 ^ 53) (k : Int) :
    substringRange n (number 0) (number (.ofInt k)) = ⟨0, substringSplit n k⟩ := by
  have hzero : substringSplit n 0 = 0 := Nat.zero_min n
  refine (substringRange_ofInt hn 0 k).trans ?_
  rw [hzero, Nat.zero_min, Nat.zero_max]

theorem substringRange_back (hn : n < 2 ^ 53) (k : Int) :
    substringRange n (number (.ofInt k)) null = ⟨substringSplit n k, n⟩ := by
  have hle : substringSplit n k ≤ n := min_le_right _ _
  simp only [substringRange, boundOr, toNumber, substringBound_ofInt hn, min_eq_left hle, max_eq_right hle]

/-- a method that cuts runs out of a sequence: it returns the run in the range of its arguments, and the two runs to either
side of a whole number are all of the sequence -/
structure Cuts (v : Value) (name : String) (items : List α) (ofItems : List α → Value) (range : Value → Value → Range)
    (split : Int → Nat) : Prop where
  run : ∀ arguments : List Value, ∃ run, v.callMethod name arguments = .ok (ofItems run) ∧
    Run items (range (arguments.getD 0 null) (arguments.getD 1 null)) run
  parts : ∀ k : Int, ∃ front back, v.callMethod name [number 0, number (.ofInt k)] = .ok (ofItems front) ∧
    v.callMethod name [number (.ofInt k)] = .ok (ofItems back) ∧ front ++ back = items ∧ front.length = split k

theorem cuts_of_range {v : Value} {name : String} {items : List α} {ofItems : List α → Value}
    {range : Value → Value → Range} {split : Int → Nat}
    (call : ∀ arguments : List Value, v.callMethod name arguments =
      .ok (ofItems (cut (range (arguments.getD 0 null) (arguments.getD 1 null)) items)))
    (within : ∀ a b, (range a b).Within items.length)
    (front : ∀ k : Int, range (number 0) (number (.ofInt k)) = ⟨0, split k⟩)
    (back : ∀ k : Int, range (number (.ofInt k)) null = ⟨split k, items.length⟩) :
    Cuts v name items ofItems range split := by
  refine ⟨fun arguments => ⟨_, call arguments, run_cut (within _ _)⟩, fun k => ?_⟩
  have hle : split k ≤ items.length := by
    have h := (within (number (.ofInt k)) null).1
    rwa [back k] at h
  have hfront : cut (range (number 0) (number (.ofInt k))) items = items.take (split k) := by rw [front k]; rfl
  have hback : cut (range (number (.ofInt k)) null) items = items.drop (split k) := by rw [back k, cut, List.take_length]
  exact ⟨_, _, call [number 0, number (.ofInt k)], call [number (.ofInt k)],
    by simp only [List.getD_cons_zero, List.getD_cons_succ, List.getD_nil, hfront, hback, List.take_append_drop],
    by simp only [List.getD_cons_zero, List.getD_cons_succ, hfront, List.length_take, min_eq_left hle]⟩

/-- a string of characters -/
def ofChars (cs : List Char) : Value := string (String.ofList cs)

/-- **Pieces are in range, and two of them make the whole.** For texts and arrays of fewer than 2 ^ 53 items, `slice` and
`substring` return the run of items in a range within them, whatever their arguments are. Up to a whole number and from there
on, negative or behind the end as it may be, the pieces are all of the items. -/
theorem pieces_of_sequence :
    (∀ (v : Value) (s : String), v.text? = some s → s.length < 2 ^ 53 →
      Cuts v "slice" s.toList ofChars (sliceRange s.length) (sliceSplit s.length) ∧
      Cuts v "substring" s.toList ofChars (substringRange s.length) (substringSplit s.length)) ∧
    ∀ items : List Value, items.length < 2 ^ 53 →
      Cuts (array items) "slice" items array (sliceRange items.length) (sliceSplit items.length) := by
  refine ⟨fun v s hv hs => ?_, fun items hn => ?_⟩
  · have hlength : s.toList.length = s.length := String.length_toList
    rw [← hlength] at hs ⊢
    refine ⟨cuts_of_range (fun _ => ?_) (sliceRange_within hs) (sliceRange_front hs) (sliceRange_back hs),
      cuts_of_range (fun _ => ?_) (substringRange_within hs) (substringRange_front hs) (substringRange_back hs)⟩ <;>
    cases v <;> cases hv <;> rfl
  · exact cuts_of_range (fun _ => rfl) (sliceRange_within hn) (sliceRange_front hn) (sliceRange_back hn)

/-- a text of two characters in four bytes at a place far in front of it, and a list at its last item -/
theorem pieces_of_pair :
    (∃ front back, (raw "éß").callMethod "slice" [number 0, number (.ofInt (-9))] = .ok (ofChars front) ∧
      (raw "éß").callMethod "slice" [number (.ofInt (-9))] = .ok (ofChars back) ∧
      front ++ back = "éß".toList ∧ front.length = 0) ∧
    ∃ front back, (array [null, null]).callMethod "slice" [number 0, number (.ofInt (-1))] = .ok (array front) ∧
      (array [null, null]).callMethod "slice" [number (.ofInt (-1))] = .ok (array back) ∧
      front ++ back = [null, null] ∧ front.length = 1 :=
  ⟨(pieces_of_sequence.1 (raw "éß") "éß" rfl (by decide)).1.parts (-9),
    (pieces_of_sequence.2 [null, null] (by decide)).parts (-1)⟩

end TemplateView.Value
