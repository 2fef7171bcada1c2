/-
Tables keyed by text: association lists in increasing order of their keys, which is the order of code points. The same
order serves the members of objects and the helpers and sections of a view.
-/
namespace TemplateView

/-- values under text keys, in increasing order of the keys -/
abbrev Table (α : Type) := List (String × α)

namespace Table

/-- the value of a key -/
def get? {α : Type} : Table α → String → Option α
  | [], _ => none
  | (k, v) :: t, key => if key = k then some v else get? t key

/-- a value under a key, in place of an earlier one -/
def insert {α : Type} (key : String) (value : α) : Table α → Table α
  | [] => [(key, value)]
  | (k, v) :: t =>
    if key < k then (key, value) :: (k, v) :: t
    else if key = k then (key, value) :: t
    else (k, v) :: insert key value t

/-- pairs in any order; of two values under one key the later stays -/
def ofList {α : Type} (pairs : List (String × α)) : Table α :=
  pairs.foldl (fun t p => insert p.1 p.2 t) []

def keys {α : Type} (t : Table α) : List String :=
  t.map Prod.fst

def contains {α : Type} (t : Table α) (key : String) : Bool :=
  (t.get? key).isSome

@[simp] theorem get?_nil {α : Type} (key : String) : get? ([] : Table α) key = none := rfl

/-- what was inserted is found -/
theorem get?_insert_self {α : Type} (t : Table α) (key : String) (value : α) :
    (insert key value t).get? key = some value := by
  induction t with
  | nil => simp [insert, get?]
  | cons p t ih =>
    obtain ⟨k, v⟩ := p
    rw [insert]
    split
    · simp [get?]
    split
    · simp [get?]
    · next hk => simp [get?, hk, ih]

/-- no other key is touched -/
theorem get?_insert_of_ne {α : Type} (t : Table α) {key other : String} (value : α) (h : other ≠ key) :
    (insert key value t).get? other = t.get? other := by
  induction t with
  | nil => simp [insert, get?, h]
  | cons p t ih =>
    obtain ⟨k, v⟩ := p
    rw [insert]
    split
    · simp [get?, h]
    split
    · next hk => subst hk; simp [get?, h]
    · simp only [get?, ih]

end Table

end TemplateView
