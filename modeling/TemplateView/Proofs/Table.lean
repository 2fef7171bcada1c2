/-
Members of tables: where an entry comes from, in which order the keys stand, and how values are mapped under their keys.
-/
import Mathlib.Data.List.Sort
import Mathlib.Data.String.Basic
import TemplateView.Table

namespace TemplateView.Table

variable {α β : Type}

theorem mem_of_get? {t : Table α} {key : String} {a : α} (h : t.get? key = some a) : (key, a) ∈ t := by
  induction t with
  | nil => cases h
  | cons p t ih =>
    obtain ⟨k, v⟩ := p
    rw [get?] at h
    split at h
    · next hk =>
      cases h
      subst hk
      exact List.mem_cons_self
    · exact List.mem_cons_of_mem _ (ih h)

theorem mem_insert {t : Table α} {key : String} {value : α} {p : String × α}
    (h : p ∈ t.insert key value) : p = (key, value) ∨ p ∈ t := by
  induction t with
  | nil => exact Or.inl (List.mem_singleton.1 h)
  | cons q t ih =>
    rw [insert] at h
    split at h
    · exact List.mem_cons.1 h
    split at h
    · exact (List.mem_cons.1 h).imp_right (List.mem_cons_of_mem _)
    · rcases List.mem_cons.1 h with rfl | h
      · exact Or.inr List.mem_cons_self
      · exact (ih h).imp_right (List.mem_cons_of_mem _)

theorem mem_of_mem_ofList {pairs : List (String × α)} {p : String × α}
    (h : p ∈ ofList pairs) : p ∈ pairs := by
  have key : ∀ (ps : List (String × α)) (t : Table α),
      p ∈ ps.foldl (fun t p => t.insert p.1 p.2) t → p ∈ t ∨ p ∈ ps := by
    intro ps
    induction ps with
    | nil => exact fun t h => Or.inl h
    | cons q ps ih =>
      intro t h
      rcases ih _ h with h | h
      · rcases mem_insert h with rfl | h
        · exact Or.inr List.mem_cons_self
        · exact Or.inl h
      · exact Or.inr (List.mem_cons_of_mem q h)
  rcases key pairs [] h with h | h
  · cases h
  · exact h

theorem contains_insert (t : Table α) (key other : String) (value : α) :
    (t.insert key value).contains other = (other == key || t.contains other) := by
  unfold contains
  by_cases h : other = key
  · subst h
    simp [get?_insert_self]
  · simp [get?_insert_of_ne t value h, h]

theorem contains_ofList (pairs : List (String × α)) (key : String) :
    (ofList pairs).contains key = (pairs.map Prod.fst).contains key := by
  have h : ∀ (ps : List (String × α)) (t : Table α),
      (ps.foldl (fun t p => t.insert p.1 p.2) t).contains key = (t.contains key || (ps.map Prod.fst).contains key) := by
    intro ps
    induction ps with
    | nil => simp
    | cons p ps ih =>
      intro t
      rw [List.foldl_cons, ih, contains_insert, List.map_cons, List.contains_cons, Bool.or_assoc, Bool.or_left_comm]
  exact h pairs []

theorem mem_keys {t : Table α} {key : String} : key ∈ t.keys ↔ t.contains key = true := by
  induction t with
  | nil => simp [keys, contains]
  | cons p t ih =>
    obtain ⟨k, v⟩ := p
    unfold keys contains at ih ⊢
    rw [List.map_cons, List.mem_cons, ih, get?]
    by_cases h : key = k <;> simp [h]

theorem map_insert (f : α → β) (key : String) (value : α) (t : Table α) :
    (insert key value t).map (fun p => (p.1, f p.2)) = insert key (f value) (t.map fun p => (p.1, f p.2)) := by
  induction t with
  | nil => rfl
  | cons p t ih =>
    obtain ⟨k, v⟩ := p
    simp only [insert, List.map_cons]
    split
    · rfl
    split
    · rfl
    · rw [List.map_cons, ih]

theorem get?_map (f : α → β) (t : Table α) (key : String) :
    get? (t.map fun p => (p.1, f p.2)) key = (t.get? key).map f := by
  induction t with
  | nil => rfl
  | cons p t ih =>
    obtain ⟨k, v⟩ := p
    simp only [List.map_cons, get?]
    split
    · rfl
    · exact ih

/-! ## The order of keys -/

theorem mem_keys_insert {t : Table α} {key other : String} {value : α} :
    other ∈ (t.insert key value).keys ↔ other = key ∨ other ∈ t.keys := by
  rw [mem_keys, contains_insert, Bool.or_eq_true, beq_iff_eq, mem_keys]

theorem pairwise_keys_insert {t : Table α} (h : t.keys.Pairwise (· < ·)) (key : String) (value : α) :
    (t.insert key value).keys.Pairwise (· < ·) := by
  induction t with
  | nil => exact List.pairwise_singleton _ _
  | cons p t ih =>
    obtain ⟨k, v⟩ := p
    obtain ⟨hk, ht⟩ := List.pairwise_cons.1 (show (k :: keys t).Pairwise (· < ·) from h)
    rw [insert]
    split
    · next hlt =>
      refine List.pairwise_cons.2 ⟨fun x hx => ?_, h⟩
      rcases List.mem_cons.1 hx with rfl | hx
      · exact hlt
      · exact hlt.trans (hk x hx)
    split
    · next he => subst he; exact List.pairwise_cons.2 ⟨hk, ht⟩
    · next hle hne =>
      refine List.pairwise_cons.2 ⟨fun x hx => ?_, ih ht⟩
      rcases mem_keys_insert.1 hx with rfl | hx
      · exact lt_of_le_of_ne (not_lt.1 hle) (Ne.symm hne)
      · exact hk x hx

/-- a table made of pairs has its keys in increasing order -/
theorem pairwise_keys_ofList (pairs : List (String × α)) : (ofList pairs).keys.Pairwise (· < ·) := by
  have key : ∀ (ps : List (String × α)) (t : Table α), t.keys.Pairwise (· < ·) →
      (keys (ps.foldl (fun t p => t.insert p.1 p.2) t)).Pairwise (· < ·) := by
    intro ps
    induction ps with
    | nil => exact fun t h => h
    | cons p ps ih => exact fun t h => ih _ (pairwise_keys_insert h p.1 p.2)
  exact key pairs [] List.Pairwise.nil

theorem mem_keys_ofList {pairs : List (String × α)} {key : String} :
    key ∈ (ofList pairs).keys ↔ key ∈ pairs.map Prod.fst := by
  rw [mem_keys, contains_ofList, List.contains_iff_mem]

/-- pairs under different keys are all kept -/
theorem length_ofList {pairs : List (String × α)} (h : (pairs.map Prod.fst).Nodup) :
    (ofList pairs).length = pairs.length := by
  have hk : (ofList pairs).keys.Nodup := (pairwise_keys_ofList pairs).imp ne_of_lt
  have hp := (List.perm_ext_iff_of_nodup hk h).2 fun _ => mem_keys_ofList
  simpa [keys] using hp.length_eq

theorem mem_ofList {pairs : List (String × α)} (h : (pairs.map Prod.fst).Nodup) {p : String × α} (hp : p ∈ pairs) :
    p ∈ ofList pairs := by
  have hk : p.1 ∈ (ofList pairs).keys := mem_keys_ofList.2 (List.mem_map_of_mem hp)
  obtain ⟨q, hq, he⟩ := List.mem_map.1 hk
  rwa [← List.inj_on_of_nodup_map h (mem_of_mem_ofList hq) hp he]

theorem mem_ofList_iff {pairs : List (String × α)} (h : (pairs.map Prod.fst).Nodup) {p : String × α} :
    p ∈ ofList pairs ↔ p ∈ pairs :=
  ⟨mem_of_mem_ofList, mem_ofList h⟩

/-- tables are equal if they have the same members -/
theorem eq_of_mem_iff {t t' : Table α} (h : t.keys.Pairwise (· < ·)) (h' : t'.keys.Pairwise (· < ·))
    (hm : ∀ p, p ∈ t ↔ p ∈ t') : t = t' := by
  have hasymm : Std.Antisymm fun p q : String × α => p.1 < q.1 := ⟨fun _ _ hpq hqp => absurd hqp (lt_asymm hpq)⟩
  have hirrefl : Std.Irrefl fun p q : String × α => p.1 < q.1 := ⟨fun p => lt_irrefl p.1⟩
  exact (List.pairwise_map.1 h).eq_of_mem_iff (List.pairwise_map.1 h') hm

/-- pairs under different keys may stand in any order -/
theorem ofList_eq_of_perm {pairs pairs' : List (String × α)} (h : pairs.Perm pairs')
    (hn : (pairs.map Prod.fst).Nodup) : ofList pairs = ofList pairs' := by
  refine eq_of_mem_iff (pairwise_keys_ofList _) (pairwise_keys_ofList _) fun p => ?_
  rw [mem_ofList_iff hn, mem_ofList_iff ((h.map Prod.fst).nodup_iff.1 hn), h.mem_iff]

/-- without some of the pairs, a table lacks their keys and no others: names among which all of their keys are, and none
of the other pairs' -/
theorem ofList_eq_filter {pairs some rest : List (String × α)} {names : List String} (h : pairs.Perm (some ++ rest))
    (hn : (pairs.map Prod.fst).Nodup) (hs : ∀ p ∈ some, p.1 ∈ names) (hr : ∀ p ∈ rest, p.1 ∉ names) :
    ofList rest = (ofList pairs).filter fun p => !names.contains p.1 := by
  have hrest : (rest.map Prod.fst).Nodup := by
    have hsplit := (h.map Prod.fst).nodup_iff.1 hn
    rw [List.map_append] at hsplit
    exact hsplit.of_append_right
  have hkeys : (keys ((ofList pairs).filter fun p => !names.contains p.1)).Pairwise (· < ·) :=
    (pairwise_keys_ofList pairs).sublist (List.filter_sublist.map Prod.fst)
  refine eq_of_mem_iff (pairwise_keys_ofList _) hkeys fun p => ?_
  rw [mem_ofList_iff hrest, List.mem_filter, mem_ofList_iff hn, h.mem_iff, List.mem_append, Bool.not_eq_true',
    List.contains_eq_mem, decide_eq_false_iff_not]
  constructor
  · exact fun hp => ⟨.inr hp, hr p hp⟩
  · rintro ⟨hp | hp, hkey⟩
    · exact absurd (hs p hp) hkey
    · exact hp

theorem map_ofList (f : α → β) (pairs : List (String × α)) :
    (ofList pairs).map (fun p => (p.1, f p.2)) = ofList (pairs.map fun p => (p.1, f p.2)) := by
  have key : ∀ (ps : List (String × α)) (t : Table α),
      (ps.foldl (fun t p => t.insert p.1 p.2) t).map (fun p => (p.1, f p.2)) =
        (ps.map fun p => (p.1, f p.2)).foldl (fun (t : Table β) p => t.insert p.1 p.2) (t.map fun p => (p.1, f p.2)) := by
    intro ps
    induction ps with
    | nil => exact fun t => rfl
    | cons p ps ih =>
      intro t
      rw [List.foldl_cons, ih, map_insert, List.map_cons, List.foldl_cons]
  exact key pairs []

end TemplateView.Table
