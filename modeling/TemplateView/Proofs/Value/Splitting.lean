/-
Splitting a text and joining the parts. `breakAt` finds the first place where a separator occurs, so the parts between
occurrences hold none, and the separator between neighbours makes the text of them again. `join_split` says so of the
methods of values, for separators of every kind.
-/
import TemplateView.Value.Methods

namespace TemplateView

namespace Text

variable {sep cs before behind : List Char}

/-! ## Occurrences -/

/-- no occurrence is found where there is none -/
theorem not_infix_of_breakAt (h : breakAt sep cs = none) : ¬ sep <:+: cs := by
  induction cs with
  | nil =>
    rw [List.infix_nil]
    rintro rfl
    cases h
  | cons c cs ih =>
    rw [breakAt] at h
    split at h
    · cases h
    · next hp =>
      rw [List.isPrefixOf_iff_prefix] at hp
      rw [List.infix_cons_iff, not_or]
      exact ⟨hp, ih (Option.map_eq_none_iff.1 h)⟩

/-- what is found is the first occurrence: there is none in front of it -/
theorem not_infix_before (hs : sep ≠ []) (h : breakAt sep cs = some (before, behind)) : ¬ sep <:+: before := by
  induction cs generalizing before with
  | nil =>
    rw [breakAt, if_neg hs] at h
    cases h
  | cons c cs ih =>
    rw [breakAt] at h
    split at h
    · cases h
      rwa [List.infix_nil]
    · next hp =>
      obtain ⟨⟨front, tail⟩, hfront, heq⟩ := Option.map_eq_some_iff.1 h
      cases heq
      rw [List.infix_cons_iff, not_or]
      refine ⟨fun hprefix => hp ?_, ih hfront⟩
      rw [List.isPrefixOf_iff_prefix, eq_append_of_breakAt hfront, List.append_assoc]
      exact hprefix.trans (List.prefix_append (c :: front) _)

/-! ## Parts -/

theorem splitOn_ne_nil (sep cs : List Char) : splitOn sep cs ≠ [] := by
  rw [splitOn]
  split
  · exact List.cons_ne_nil _ _
  split <;> exact List.cons_ne_nil _ _

theorem joinWith_cons {parts : List (List Char)} (h : parts ≠ []) (part : List Char) :
    joinWith sep (part :: parts) = part ++ sep ++ joinWith sep parts := by
  cases parts with
  | nil => exact absurd rfl h
  | cons p ps => rfl

/-- **The separator between neighbours makes a text of its parts.** -/
theorem joinWith_splitOn (sep cs : List Char) : joinWith sep (splitOn sep cs) = cs := by
  fun_induction splitOn sep cs with
  | case1 cs hs => rfl
  | case2 cs hs h => rfl
  | case3 cs hs before behind h _ ih =>
    rw [joinWith_cons (splitOn_ne_nil sep behind), ih]
    exact (eq_append_of_breakAt h).symm

/-- no part holds the separator -/
theorem not_infix_of_mem_splitOn (hs : sep ≠ []) : ∀ part ∈ splitOn sep cs, ¬ sep <:+: part := by
  fun_induction splitOn sep cs with
  | case1 cs h => exact absurd h hs
  | case2 cs _ h => exact List.forall_mem_singleton.2 (not_infix_of_breakAt h)
  | case3 cs _ before behind h _ ih => exact List.forall_mem_cons.2 ⟨not_infix_before hs h, ih⟩

/-- the parts of a text at a separator; an empty one stands between all characters -/
def partsAt (sep cs : List Char) : List (List Char) :=
  if sep = [] then cs.map fun c => [c] else splitOn sep cs

theorem joinWith_partsAt (sep cs : List Char) : joinWith sep (partsAt sep cs) = cs := by
  unfold partsAt
  split
  · next hs =>
    subst hs
    induction cs with
    | nil => rfl
    | cons c cs ih =>
      cases cs with
      | nil => rfl
      | cons d ds => rw [List.map_cons, joinWith_cons (by simp), ih]; rfl
  · exact joinWith_splitOn sep cs

end Text

/-! ## Values -/

namespace Value

/-- the texts of strings are the strings -/
theorem itemTexts_strings (parts : List String) : itemTexts (parts.map string) = parts := by
  induction parts with
  | nil => rfl
  | cons part parts ih =>
    rw [List.map_cons, itemTexts, ih, text]
    exact nofun

/-- strings are joined as their characters are -/
theorem joinItems_strings (separator : String) (parts : List (List Char)) :
    joinItems separator ((parts.map String.ofList).map string) =
      String.ofList (Text.joinWith separator.toList parts) := by
  have hchars : (parts.map String.ofList).map String.toList = parts := by
    rw [List.map_map]
    exact (List.map_congr_left fun part _ => String.toList_ofList).trans (List.map_id parts)
  rw [joinItems, itemTexts_strings, Text.join, hchars]

theorem split_null (s : String) : split s null = [s].map string := rfl

theorem split_of_ne_null {separator : Value} (h : separator ≠ null) (s : String) :
    split s separator = ((Text.partsAt separator.text.toList s.toList).map String.ofList).map string := by
  have hsplit : split s separator =
      if separator.text.toList.isEmpty then s.toList.map ofChar
      else (Text.splitOn separator.text.toList s.toList).map fun part => string (String.ofList part) := by
    cases separator with
    | null => exact absurd rfl h
    | _ => rfl
  rw [hsplit, Text.partsAt, List.map_map]
  simp only [List.isEmpty_iff]
  split
  · rw [List.map_map]
    rfl
  · rfl

theorem join_of_ne_null {separator : Value} (h : separator ≠ null) (items : List Value) :
    join items separator = joinItems separator.text items := by
  cases separator with
  | null => exact absurd rfl h
  | _ => rfl

/-- **Joining undoes splitting.** A text, be it markup or not, splits at a value of any kind into strings, and joined with
the same value these are the text again. Strings that a separator parts do not hold it, unless it is empty. -/
theorem join_split {v : Value} {s : String} (hv : v.text? = some s) (separator : Value) :
    ∃ parts : List String, v.callMethod "split" [separator] = .ok (.array (parts.map .string)) ∧
      (Value.array (parts.map .string)).callMethod "join" [separator] = .ok (.string s) ∧
      (separator ≠ .null → separator.text ≠ "" → ∀ part ∈ parts, ¬ separator.text.toList <:+: part.toList) := by
  have hsplit : v.callMethod "split" [separator] = .ok (.array (split s separator)) := by
    cases v <;> cases hv <;> rfl
  have hjoin : ∀ items, (Value.array items).callMethod "join" [separator] = .ok (.string (join items separator)) :=
    fun _ => rfl
  by_cases hn : separator = .null
  · subst hn
    rw [split_null] at hsplit
    refine ⟨[s], hsplit, ?_, fun h => absurd rfl h⟩
    rw [hjoin, join, joinItems, itemTexts_strings, Text.join]
    exact congrArg (fun s => Except.ok (Value.string s)) String.ofList_toList
  · refine ⟨(Text.partsAt separator.text.toList s.toList).map String.ofList, ?_, ?_, fun _ ht => ?_⟩
    · rw [hsplit, split_of_ne_null hn]
    · rw [hjoin, join_of_ne_null hn, joinItems_strings, Text.joinWith_partsAt, String.ofList_toList]
    · have hs : separator.text.toList ≠ [] := fun h => ht (String.toList_eq_nil_iff.1 h)
      rw [Text.partsAt, if_neg hs, List.forall_mem_map]
      intro part hpart
      rw [String.toList_ofList]
      exact Text.not_infix_of_mem_splitOn hs part hpart

/-- markup at a separator that overlaps itself and stands at its end, and a text at a list that is empty as text -/
theorem join_split_overlapping :
    (∃ parts : List String,
      (Value.raw "ééé<b>éé").callMethod "split" [.string "éé"] = .ok (.array (parts.map .string)) ∧
      (Value.array (parts.map .string)).callMethod "join" [.string "éé"] = .ok (.string "ééé<b>éé")) ∧
    ∃ parts : List String, (Value.string "a, b").callMethod "split" [.array []] = .ok (.array (parts.map .string)) ∧
      (Value.array (parts.map .string)).callMethod "join" [.array []] = .ok (.string "a, b") := by
  obtain ⟨parts, hsplit, hjoin, -⟩ := join_split (v := .raw "ééé<b>éé") rfl (.string "éé")
  obtain ⟨chars, hchars, hback, -⟩ := join_split (v := .string "a, b") rfl (.array [])
  exact ⟨⟨parts, hsplit, hjoin⟩, chars, hchars, hback⟩

end Value

end TemplateView
