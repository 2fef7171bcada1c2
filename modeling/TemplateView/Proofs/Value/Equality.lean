/-
Equality and markup. Strict equality takes markup for its text, but compares the members of objects as they are, so there a
text is not the same as markup. `equals_erase` compares both equalities with those of the values without markup: they differ
exactly where a text stands against the same text as markup inside objects.
-/
import TemplateView.Value.Operators

namespace TemplateView.Value

mutual

/-- a value with all markup in it turned into strings of the same text -/
def erase : Value → Value
  | null => null
  | bool b => bool b
  | number x => number x
  | string s => string s
  | array items => array (eraseItems items)
  | object members => object (eraseMembers members)
  | raw markup => string markup

def eraseItems : List Value → List Value
  | [] => []
  | v :: vs => v.erase :: eraseItems vs

def eraseMembers : List (String × Value) → List (String × Value)
  | [] => []
  | (k, v) :: ms => (k, v.erase) :: eraseMembers ms

end

mutual

/-- wherever two texts are compared inside objects, both or neither are markup; `inside` says that the values themselves are
members of objects -/
def alike (inside : Bool) : Value → Value → Bool
  | string _, raw _ => !inside
  | raw _, string _ => !inside
  | array vs, array ws => alikeItems inside vs ws
  | object ms, object ns => alikeMembers ms ns
  | _, _ => true

def alikeItems (inside : Bool) : List Value → List Value → Bool
  | v :: vs, w :: ws => alike inside v w && alikeItems inside vs ws
  | _, _ => true

def alikeMembers : List (String × Value) → List (String × Value) → Bool
  | (_, v) :: ms, (_, w) :: ns => alike true v w && alikeMembers ms ns
  | _, _ => true

end

mutual

/-- no object in a value holds markup; `inside` says that the value itself is a member of an object -/
def bare (inside : Bool) : Value → Bool
  | raw _ => !inside
  | array items => bareItems inside items
  | object members => bareMembers members
  | _ => true

def bareItems (inside : Bool) : List Value → Bool
  | [] => true
  | v :: vs => bare inside v && bareItems inside vs

def bareMembers : List (String × Value) → Bool
  | [] => true
  | (_, v) :: ms => bare true v && bareMembers ms

end

/-! ## Members of objects -/

mutual

theorem same_eq (v w : Value) : same v w = (same v.erase w.erase && alike true v w) := by
  cases v with
  | array vs =>
    cases w with
    | array ws => exact sameItems_eq vs ws
    | _ => rfl
  | object ms =>
    cases w with
    | object ns => exact sameMembers_eq ms ns
    | _ => rfl
  | _ => cases w <;> simp [same, erase, alike]

theorem sameItems_eq (vs ws : List Value) :
    sameItems vs ws = (sameItems (eraseItems vs) (eraseItems ws) && alikeItems true vs ws) := by
  cases vs with
  | nil => cases ws <;> rfl
  | cons v vs =>
    cases ws with
    | nil => rfl
    | cons w ws =>
      rw [sameItems, same_eq v w, sameItems_eq vs ws, eraseItems, eraseItems, sameItems, alikeItems]
      ac_rfl

theorem sameMembers_eq (ms ns : List (String × Value)) :
    sameMembers ms ns = (sameMembers (eraseMembers ms) (eraseMembers ns) && alikeMembers ms ns) := by
  cases ms with
  | nil => cases ns <;> rfl
  | cons m ms =>
    cases ns with
    | nil => rfl
    | cons n ns =>
      obtain ⟨k, v⟩ := m
      obtain ⟨l, w⟩ := n
      rw [sameMembers, same_eq v w, sameMembers_eq ms ns, eraseMembers, eraseMembers, sameMembers, alikeMembers]
      ac_rfl

end

/-! ## Equality -/

mutual

theorem strictEquals_eq (v w : Value) : strictEquals v w = (strictEquals v.erase w.erase && alike false v w) := by
  cases v with
  | array vs =>
    cases w with
    | array ws => exact strictItems_eq vs ws
    | _ => rfl
  | object ms =>
    cases w with
    | object ns => exact sameMembers_eq ms ns
    | _ => rfl
  | _ => cases w <;> simp [strictEquals, erase, alike, text?]

theorem strictItems_eq (vs ws : List Value) :
    strictItems vs ws = (strictItems (eraseItems vs) (eraseItems ws) && alikeItems false vs ws) := by
  cases vs with
  | nil => cases ws <;> rfl
  | cons v vs =>
    cases ws with
    | nil => rfl
    | cons w ws =>
      rw [strictItems, strictEquals_eq v w, strictItems_eq vs ws, eraseItems, eraseItems, strictItems, alikeItems]
      ac_rfl

end

theorem toNumber_erase (v : Value) : v.erase.toNumber = v.toNumber := by
  cases v <;> rfl

theorem erase_ne_null {v : Value} (hv : v ≠ null) : v.erase ≠ null := by
  intro h
  cases v <;> first | exact hv rfl | cases h

theorem alike_of_numeric {v w : Value} (h : (v.isNumeric || w.isNumeric) = true) (inside : Bool) :
    alike inside v w = true := by
  cases v <;> cases w <;> first | rfl | cases h

theorem looseEquals_of_ne_null {v w : Value} (hv : v ≠ null) (hw : w ≠ null) :
    looseEquals v w = if (v.isNumeric || w.isNumeric) && !(v.isBool && w.isBool) then v.toNumber == w.toNumber
      else strictEquals v w := by
  cases v <;> cases w <;> first | rfl | exact absurd rfl hv | exact absurd rfl hw

theorem looseEquals_eq (v w : Value) : looseEquals v w = (looseEquals v.erase w.erase && alike false v w) := by
  by_cases hv : v = null
  · subst hv
    cases w <;> rfl
  by_cases hw : w = null
  · subst hw
    cases v <;> rfl
  have hnumeric : ∀ v : Value, v.erase.isNumeric = v.isNumeric := fun v => by cases v <;> rfl
  have hbool : ∀ v : Value, v.erase.isBool = v.isBool := fun v => by cases v <;> rfl
  rw [looseEquals_of_ne_null hv hw, looseEquals_of_ne_null (erase_ne_null hv) (erase_ne_null hw), hnumeric, hnumeric, hbool, hbool, toNumber_erase,
    toNumber_erase]
  split
  · next h => rw [alike_of_numeric (Bool.and_eq_true_iff.1 h).1, Bool.and_true]
  · exact strictEquals_eq v w

/-! ## Values without markup in objects -/

mutual

theorem alike_of_bare (inside : Bool) (v w : Value) (hv : bare inside v = true) (hw : bare inside w = true) :
    alike inside v w = true := by
  cases v with
  | array vs =>
    cases w with
    | array ws => exact alikeItems_of_bare inside vs ws hv hw
    | _ => rfl
  | object ms =>
    cases w with
    | object ns => exact alikeMembers_of_bare ms ns hv hw
    | _ => rfl
  | string s =>
    cases w with
    | raw m => exact hw
    | _ => rfl
  | raw m =>
    cases w with
    | string s => exact hv
    | _ => rfl
  | _ => rfl

theorem alikeItems_of_bare (inside : Bool) (vs ws : List Value) (hv : bareItems inside vs = true)
    (hw : bareItems inside ws = true) : alikeItems inside vs ws = true := by
  cases vs with
  | nil => rfl
  | cons v vs =>
    cases ws with
    | nil => rfl
    | cons w ws =>
      rw [bareItems, Bool.and_eq_true] at hv hw
      rw [alikeItems, alike_of_bare inside v w hv.1 hw.1, alikeItems_of_bare inside vs ws hv.2 hw.2, Bool.and_true]

theorem alikeMembers_of_bare (ms ns : List (String × Value)) (hm : bareMembers ms = true) (hn : bareMembers ns = true) :
    alikeMembers ms ns = true := by
  cases ms with
  | nil => rfl
  | cons m ms =>
    cases ns with
    | nil => rfl
    | cons n ns =>
      obtain ⟨k, v⟩ := m
      obtain ⟨l, w⟩ := n
      rw [bareMembers, Bool.and_eq_true] at hm hn
      rw [alikeMembers, alike_of_bare true v w hm.1 hn.1, alikeMembers_of_bare ms ns hm.2 hn.2, Bool.and_true]

end

/-- **Markup is its text at every depth of arrays, and markup in objects.** Both equalities hold of two values if they hold of
them without markup and no text stands against markup in an object. So they take markup for its text in values whose objects
hold none. -/
theorem equals_erase (v w : Value) :
    strictEquals v w = (strictEquals v.erase w.erase && alike false v w) ∧
    looseEquals v w = (looseEquals v.erase w.erase && alike false v w) ∧
    (bare false v = true → bare false w = true →
      strictEquals v w = strictEquals v.erase w.erase ∧ looseEquals v w = looseEquals v.erase w.erase) := by
  refine ⟨strictEquals_eq v w, looseEquals_eq v w, fun hv hw => ?_⟩
  have h := alike_of_bare false v w hv hw
  rw [strictEquals_eq v w, looseEquals_eq v w, h, Bool.and_true, Bool.and_true]
  exact ⟨rfl, rfl⟩

/-- markup in a list in a list, and an object with a text beside it -/
theorem equals_erase_nested :
    let v := array [array [raw "a"], object [("k", string "b")]]
    let w := array [array [string "a"], object [("k", string "b")]]
    strictEquals v w = strictEquals v.erase w.erase ∧ looseEquals v w = looseEquals v.erase w.erase :=
  (equals_erase _ _).2.2 rfl rfl

/-- markup in an object does not equal the same text there -/
theorem markup_in_object :
    ¬ ∀ v w : Value, strictEquals v w = strictEquals v.erase w.erase ∧ looseEquals v w = looseEquals v.erase w.erase :=
  fun h => absurd (h (object [("a", raw "x")]) (object [("a", string "x")])).1 (by decide)

end TemplateView.Value
