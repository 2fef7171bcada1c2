/-
The characters of a text. Its length, its items, its parts at an empty text and its items by position are one list
(`CharacterView`). `indexOf` looks for a text by its characters, not by a range of positions: `FindsFirst` says that it finds
the least position from which `substring` cuts that text, and `one_view_of_characters` says both of every text.
-/
import TemplateView.Proofs.Value.Splitting
import TemplateView.Proofs.Value.Pieces

namespace TemplateView

namespace Text

variable {part cs before behind : List Char}

/-- what is found is an occurrence -/
theorem prefix_of_breakAt (h : breakAt part cs = some (before, behind)) : part <+: cs.drop before.length := by
  rw [eq_append_of_breakAt h, List.append_assoc, List.drop_left]
  exact List.prefix_append part behind

/-- no occurrence starts in front of the one that is found -/
theorem length_le_of_breakAt (h : breakAt part cs = some (before, behind)) {i : Nat} (hi : part <+: cs.drop i) :
    before.length ≤ i := by
  induction cs generalizing before i with
  | nil =>
    rw [breakAt, Option.ite_none_right_eq_some, Option.some.injEq, Prod.mk.injEq] at h
    obtain ⟨-, rfl, -⟩ := h
    exact Nat.zero_le i
  | cons c cs ih =>
    rw [breakAt] at h
    split at h
    · cases h
      exact Nat.zero_le i
    · next hp =>
      obtain ⟨⟨front, tail⟩, hfront, heq⟩ := Option.map_eq_some_iff.1 h
      cases heq
      cases i with
      | zero => exact absurd (List.isPrefixOf_iff_prefix.2 hi) hp
      | succ i => exact Nat.succ_le_succ (ih hfront hi)

end Text

namespace Value

open Number

variable {v w : Value} {s n : String}

/-! ## Items by position -/

/-- a whole number is the position of an item or of none -/
theorem itemAt_of_approximates {items : List Value} (hn : items.length < 2 ^ 53) {x : Float} {k : Int}
    (h : Approximates k x) : itemAt items x = if 0 ≤ k then items[k.toNat]?.getD null else null := by
  rcases lt_or_ge k 0 with hk | hk
  · -- in front of the first item: no position is negative
    have hneg : value x ≤ (-1 : Int) := h.beside.le (-1) (by decide) (by exact_mod_cast Int.le_sub_one_of_lt hk)
    have hnone : index? x = none := by
      unfold index?
      split
      · next m hm =>
        rw [value_of_whole? hm] at hneg
        have hle : Int.ofNat m ≤ -1 := by exact_mod_cast hneg
        exact absurd (Int.natCast_nonneg m) (Int.not_le.2 (hle.trans_lt (by decide)))
      · rfl
    rw [if_neg hk.not_ge, itemAt, hnone]
    rfl
  · rw [if_pos hk]
    obtain ⟨m, rfl⟩ := Int.eq_ofNat_of_zero_le hk
    rcases lt_or_ge m items.length with hm | hm
    · have hwhole : whole? x = some (Int.ofNat m) := whole?_of_approximates h (hm.trans hn)
      rw [itemAt, index?, hwhole]
      rfl
    · -- behind the last item: the number may be rounded, but not to a position of one
      have hge : ((items.length : Int) : ℚ) ≤ value x := h.beside.ge items.length hn (by exact_mod_cast hm)
      rw [Int.toNat_natCast, List.getElem?_eq_none hm, itemAt, index?]
      split
      · next p hp =>
        rw [value_of_whole? hp] at hge
        have hle : (items.length : Int) ≤ Int.ofNat p := by exact_mod_cast hge
        rw [Option.bind_some, List.getElem?_eq_none (Int.ofNat_le.1 hle)]
      · rfl

/-- a text and a list of items that are its characters, however they are asked for -/
structure CharacterView (v : Value) (items : List Value) : Prop where
  visited : v.iterate = .ok items
  length : ∃ x, v.member "length" = .ok (number x) ∧ whole? x = some items.length
  split : v.callMethod "split" [string ""] = .ok (array items)
  index : ∀ k : Int, v.index (number (.ofInt k)) = .ok (if 0 ≤ k then items[k.toNat]?.getD null else null)

theorem characterView_of_text (hv : v.text? = some s) (hs : s.length < 2 ^ 53) :
    CharacterView v (s.toList.map ofChar) := by
  have hlength : (s.toList.map ofChar).length = s.length := by rw [List.length_map, String.length_toList]
  refine ⟨by cases v <;> cases hv <;> rfl, ⟨.ofNat s.length, ?_, ?_⟩, by cases v <;> cases hv <;> rfl, fun k => ?_⟩
  · rw [← String.length_toList]
    cases v <;> cases hv <;> rfl
  · rw [hlength]
    exact whole?_of_approximates (approximates_ofNat s.length) hs
  · rw [← itemAt_of_approximates (hlength.trans_lt hs) (approximates_ofInt k)]
    cases v <;> cases hv <;> rfl

/-! ## Occurrences -/

/-- the text `n` stands at a position: the piece of as many characters from there on is that text -/
def StandsAt (v : Value) (n : String) (k : Int) : Prop :=
  v.callMethod "substring" [number (.ofInt k), number (.ofInt (k + n.length))] = .ok (string n)

theorem standsAt_iff_cut (hv : v.text? = some s) (hs : s.length < 2 ^ 53) (k : Int) :
    StandsAt v n k ↔
      cut ⟨substringSplit s.length k, substringSplit s.length (k + n.length)⟩ s.toList = n.toList := by
  have hcall : v.callMethod "substring" [number (.ofInt k), number (.ofInt (k + n.length))] =
      .ok (string (String.ofList (cut (substringRange s.toList.length (number (.ofInt k))
        (number (.ofInt (k + n.length)))) s.toList))) := by
    cases v <;> cases hv <;> rfl
  have hle : substringSplit s.length k ≤ substringSplit s.length (k + n.length) := by unfold substringSplit; omega
  rw [StandsAt, hcall, String.length_toList, substringRange_ofInt hs, min_eq_left hle, max_eq_right hle, Except.ok.injEq,
    string.injEq, ← String.toList_inj, String.toList_ofList]

/-- the items in a range that is cut off at the end -/
theorem cut_min {α : Type} (items : List α) (i l : Nat) :
    cut ⟨min i items.length, min (i + l) items.length⟩ items = (items.drop i).take l := by
  rw [cut, ← List.take_eq_take_min, List.drop_take]
  rcases le_total i items.length with h | h
  · rw [min_eq_left h, Nat.add_sub_cancel_left]
  · rw [min_eq_right h, List.drop_length, List.drop_eq_nil_of_le h, List.take_nil, List.take_nil]

/-- at a position, the text stands there if its characters do -/
theorem standsAt_natCast (hv : v.text? = some s) (hs : s.length < 2 ^ 53) (i : Nat) :
    StandsAt v n i ↔ n.toList <+: s.toList.drop i := by
  have hfinish : substringSplit s.length (i + n.length) = min (i + n.length) s.length := by unfold substringSplit; omega
  rw [standsAt_iff_cut hv hs, hfinish, substringSplit, Int.toNat_natCast, ← String.length_toList, cut_min,
    List.prefix_iff_eq_take, String.length_toList, eq_comm]

/-- in front of the first character, no text but the empty one stands -/
theorem eq_empty_of_standsAt_neg (hv : v.text? = some s) (hs : s.length < 2 ^ 53) {k : Int} (hk : k < 0)
    (h : StandsAt v n k) : n = "" := by
  have hlength := congrArg List.length ((standsAt_iff_cut hv hs k).1 h)
  simp only [cut, List.length_drop, List.length_take, String.length_toList, substringSplit] at hlength
  exact String.length_eq_zero_iff.1 (by omega)

/-! ## Finding -/

/-- `indexOf` finds the least position where the text `n` stands, and -1 if it stands at none. Positions are not negative: in
front of the first character stands the empty text only. -/
structure FindsFirst (v w : Value) (n : String) : Prop where
  absent : v.callMethod "indexOf" [w] = .ok (number (-1)) ↔ ∀ k : Int, ¬ StandsAt v n k
  first : ∀ k : Int, StandsAt v n k → ∃ p : Nat, v.callMethod "indexOf" [w] = .ok (number (.ofNat p)) ∧ StandsAt v n p ∧
    ∀ j : Int, 0 ≤ j ∨ n ≠ "" → StandsAt v n j → p ≤ j

theorem ofNat_ne_neg_one (p : Nat) : Float.ofNat p ≠ -1 := by
  intro h
  have hp : ((0 : Int) : ℚ) ≤ value (.ofNat p) := (approximates_ofNat p).beside.ge 0 (by decide) (by exact_mod_cast p.zero_le)
  have hone : value (-1) ≤ (-1 : Int) := (approximates_ofNat 1).neg.beside.le (-1) (by decide) (by norm_num)
  rw [h] at hp
  exact absurd (hp.trans hone) (by norm_num)

theorem findsFirst_of_text (hv : v.text? = some s) (hw : w.text? = some n) (hs : s.length < 2 ^ 53) : FindsFirst v w n := by
  have hcall : v.callMethod "indexOf" [w] =
      .ok (positionNumber ((Text.breakAt n.toList s.toList).map (·.1.length))) := by
    cases v <;> cases hv <;> cases w <;> cases hw <;> rfl
  cases hbreak : Text.breakAt n.toList s.toList with
  | none =>
    have hnone : ∀ k : Int, ¬ StandsAt v n k := by
      intro k hk
      refine Text.not_infix_of_breakAt hbreak ?_
      rcases lt_or_ge k 0 with hneg | hnat
      · rw [eq_empty_of_standsAt_neg hv hs hneg hk]
        exact List.nil_infix
      · obtain ⟨i, rfl⟩ := Int.eq_ofNat_of_zero_le hnat
        exact ((standsAt_natCast hv hs i).1 hk).isInfix.trans (List.drop_suffix i _).isInfix
    rw [hbreak] at hcall
    exact ⟨⟨fun _ => hnone, fun _ => hcall⟩, fun k hk => absurd hk (hnone k)⟩
  | some found =>
    obtain ⟨before, behind⟩ := found
    have hstands : StandsAt v n before.length := (standsAt_natCast hv hs _).2 (Text.prefix_of_breakAt hbreak)
    rw [hbreak] at hcall
    refine ⟨⟨fun h => ?_, fun h => absurd hstands (h _)⟩, fun _ _ => ⟨before.length, hcall, hstands, fun j hj h => ?_⟩⟩
    · rw [hcall, Except.ok.injEq] at h
      exact absurd (number.inj h) (ofNat_ne_neg_one _)
    · have hnat : 0 ≤ j := hj.elim id fun hn => not_lt.1 fun hneg => hn (eq_empty_of_standsAt_neg hv hs hneg h)
      obtain ⟨i, rfl⟩ := Int.eq_ofNat_of_zero_le hnat
      exact Int.ofNat_le.2 (Text.length_le_of_breakAt hbreak ((standsAt_natCast hv hs i).1 h))

/-- **Texts have one view of their characters.** For a text of fewer than 2 ^ 53 characters, its length, its items, its parts
at an empty text and its items by position, whole numbers out of range included, agree; and `indexOf` finds the least position
where a text stands in it. -/
theorem one_view_of_characters {v w : Value} {s n : String} (hv : v.text? = some s) (hw : w.text? = some n)
    (hs : s.length < 2 ^ 53) : (∃ items, CharacterView v items) ∧ FindsFirst v w n :=
  ⟨⟨_, characterView_of_text hv hs⟩, findsFirst_of_text hv hw hs⟩

/-- markup with characters of several bytes, and a text in it that overlaps itself -/
theorem one_view_of_accents : (∃ items, CharacterView (raw "aééé<") items) ∧ FindsFirst (raw "aééé<") (string "éé") "éé" :=
  one_view_of_characters rfl rfl (by decide)

end Value

end TemplateView
