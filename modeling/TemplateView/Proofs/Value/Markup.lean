/-
The markup inside values. `raws` lists the texts of all raw markup that a value holds, at whatever depth of arrays and
objects. No operation on values makes markup: what a member, an item, a method or an operator gives holds only markup
that its operands held, and a document holds none.
-/
import TemplateView.Proofs.Table
import TemplateView.Value.Methods

namespace TemplateView

namespace Value

/-! ## Markup -/

mutual

/-- the texts of the markup in a value -/
def raws : Value → List String
  | null => []
  | bool _ => []
  | number _ => []
  | string _ => []
  | array items => rawsOfItems items
  | object members => rawsOfMembers members
  | raw markup => [markup]

def rawsOfItems : List Value → List String
  | [] => []
  | v :: vs => v.raws ++ rawsOfItems vs

def rawsOfMembers : List (String × Value) → List String
  | [] => []
  | (_, v) :: ms => v.raws ++ rawsOfMembers ms

end

theorem mem_rawsOfItems {m : String} {vs : List Value} : m ∈ rawsOfItems vs ↔ ∃ v ∈ vs, m ∈ v.raws := by
  induction vs with
  | nil => simp [rawsOfItems]
  | cons v vs ih => simp [rawsOfItems, ih]

theorem mem_rawsOfMembers {m : String} {ms : List (String × Value)} :
    m ∈ rawsOfMembers ms ↔ ∃ p ∈ ms, m ∈ p.2.raws := by
  induction ms with
  | nil => simp [rawsOfMembers]
  | cons p ms ih => simp [rawsOfMembers, ih]

/-- all markup in a value is of a kind -/
def RawsAre (P : String → Prop) (v : Value) : Prop := ∀ m ∈ v.raws, P m

variable {P : String → Prop}

theorem rawsAre_of_raws_eq_nil {v : Value} (h : v.raws = []) : v.RawsAre P := by
  intro m hm
  rw [h] at hm
  cases hm

theorem rawsAre_array {items : List Value} : (array items).RawsAre P ↔ ∀ v ∈ items, v.RawsAre P := by
  constructor
  · exact fun h v hv m hm => h m (mem_rawsOfItems.2 ⟨v, hv, hm⟩)
  · intro h m hm
    obtain ⟨v, hv, hm⟩ := mem_rawsOfItems.1 hm
    exact h v hv m hm

theorem rawsAre_object {members : List (String × Value)} :
    (object members).RawsAre P ↔ ∀ p ∈ members, p.2.RawsAre P := by
  constructor
  · exact fun h p hp m hm => h m (mem_rawsOfMembers.2 ⟨p, hp, hm⟩)
  · intro h m hm
    obtain ⟨p, hp, hm⟩ := mem_rawsOfMembers.1 hm
    exact h p hp m hm

theorem rawsAre_raw {markup : String} : (raw markup).RawsAre P ↔ P markup := by
  simp [RawsAre, raws]

@[simp] theorem rawsAre_null : null.RawsAre P := rawsAre_of_raws_eq_nil rfl

@[simp] theorem rawsAre_bool (b : Bool) : (bool b).RawsAre P := rawsAre_of_raws_eq_nil rfl

@[simp] theorem rawsAre_number (x : Float) : (number x).RawsAre P := rawsAre_of_raws_eq_nil rfl

@[simp] theorem rawsAre_string (s : String) : (string s).RawsAre P := rawsAre_of_raws_eq_nil rfl

/-! ## Documents hold none -/

mutual

theorem raws_ofJson : (j : Json) → (ofJson j).raws = []
  | .null => rfl
  | .bool _ => rfl
  | .integer _ => rfl
  | .float _ => rfl
  | .string _ => rfl
  | .array items => by
    rw [List.eq_nil_iff_forall_not_mem]
    intro m hm
    obtain ⟨v, hv, hm⟩ := mem_rawsOfItems.1 hm
    rw [raws_of_mem_ofJsonItems items v hv] at hm
    cases hm
  | .object members => by
    rw [List.eq_nil_iff_forall_not_mem]
    intro m hm
    obtain ⟨p, hp, hm⟩ := mem_rawsOfMembers.1 hm
    rw [raws_of_mem_ofJsonMembers members p (Table.mem_of_mem_ofList hp)] at hm
    cases hm

theorem raws_of_mem_ofJsonItems : (js : List Json) → ∀ v ∈ ofJsonItems js, v.raws = []
  | [], _, hv => by cases hv
  | j :: js, v, hv => by
    rcases List.mem_cons.1 hv with rfl | hv
    · exact raws_ofJson j
    · exact raws_of_mem_ofJsonItems js v hv

theorem raws_of_mem_ofJsonMembers : (ms : List (String × Json)) → ∀ p ∈ ofJsonMembers ms, p.2.raws = []
  | [], _, hp => by cases hp
  | (_, j) :: ms, p, hp => by
    rcases List.mem_cons.1 hp with rfl | hp
    · exact raws_ofJson j
    · exact raws_of_mem_ofJsonMembers ms p hp

end

/-! ## Members, items and methods -/

theorem rawsAre_getD_get? {members : List (String × Value)} (h : (object members).RawsAre P) (name : String) :
    ((Table.get? members name).getD null).RawsAre P := by
  cases hg : Table.get? members name with
  | none => exact rawsAre_null
  | some v => exact rawsAre_object.1 h _ (Table.mem_of_get? hg)

theorem rawsAre_property {v : Value} (h : v.RawsAre P) (name : String) : (v.property name).RawsAre P := by
  cases v with
  | object members => exact rawsAre_getD_get? h name
  | _ => exact rawsAre_null

theorem rawsAre_member {v w : Value} {name : String} (h : v.RawsAre P) (hw : v.member name = .ok w) :
    w.RawsAre P := by
  cases v with
  | null => cases hw
  | object members => cases hw; exact rawsAre_getD_get? h name
  | bool _ => cases hw; exact rawsAre_null
  | number _ => cases hw; exact rawsAre_null
  | _ =>
    simp only [member, Except.ok.injEq] at hw
    subst hw
    split <;> simp

theorem rawsAre_itemAt {items : List Value} (h : ∀ v ∈ items, v.RawsAre P) (x : Float) : (itemAt items x).RawsAre P := by
  unfold itemAt
  cases hi : (Number.index? x).bind fun i => items[i]? with
  | none => exact rawsAre_null
  | some v =>
    obtain ⟨i, -, hv⟩ := Option.bind_eq_some_iff.1 hi
    exact h v (List.mem_of_getElem? hv)

theorem rawsAre_of_mem_chars {s : String} : ∀ v ∈ s.toList.map ofChar, v.RawsAre P := by
  intro v hv
  obtain ⟨c, -, rfl⟩ := List.mem_map.1 hv
  exact rawsAre_string _

theorem rawsAre_index {v key w : Value} (h : v.RawsAre P) (hw : v.index key = .ok w) : w.RawsAre P := by
  unfold index at hw
  split at hw
  · cases hw
  · cases hw; exact rawsAre_itemAt (rawsAre_array.1 h) _
  · cases hw; exact rawsAre_itemAt rawsAre_of_mem_chars _
  · cases hw; exact rawsAre_itemAt rawsAre_of_mem_chars _
  · exact rawsAre_member h hw

theorem rawsAre_of_mem_iterate {v : Value} {items : List Value} (h : v.RawsAre P) (hi : v.iterate = .ok items) :
    ∀ w ∈ items, w.RawsAre P := by
  cases v with
  | array vs => cases hi; exact rawsAre_array.1 h
  | string s => cases hi; exact rawsAre_of_mem_chars
  | raw s => cases hi; exact rawsAre_of_mem_chars
  | object members =>
    cases hi
    intro w hw
    obtain ⟨p, hp, rfl⟩ := List.mem_map.1 hw
    exact rawsAre_object.1 h p hp
  | _ => cases hi

theorem rawsAre_positionNumber (n : Option Nat) : (positionNumber n).RawsAre P := by
  cases n <;> exact rawsAre_number _

theorem rawsAre_of_mem_split {s : String} {separator : Value} : ∀ v ∈ split s separator, v.RawsAre P := by
  intro v hv
  unfold split at hv
  split at hv
  · rw [List.mem_singleton.1 hv]; exact rawsAre_string s
  · simp only at hv
    split at hv
    · exact rawsAre_of_mem_chars v hv
    · obtain ⟨part, -, rfl⟩ := List.mem_map.1 hv
      exact rawsAre_string _

theorem rawsAre_stringMethod {s name : String} {first second w : Value}
    (hw : stringMethod? s name first second = some w) : w.RawsAre P := by
  unfold stringMethod? at hw
  split at hw
  case h_5 => cases hw; exact rawsAre_positionNumber _
  case h_8 => cases hw; exact rawsAre_array.2 rawsAre_of_mem_split
  all_goals cases hw <;> exact rawsAre_string _

theorem rawsAre_arrayMethod {items : List Value} {name : String} {first second w : Value}
    (h : ∀ v ∈ items, v.RawsAre P) (hw : arrayMethod? items name first second = some w) : w.RawsAre P := by
  unfold arrayMethod? at hw
  split at hw
  · cases hw; exact rawsAre_string _
  · cases hw; exact rawsAre_positionNumber _
  · cases hw
    refine rawsAre_array.2 fun v hv => h v ?_
    exact List.mem_of_mem_take (List.mem_of_mem_drop hv)
  · cases hw; exact rawsAre_string _
  · cases hw

theorem rawsAre_callMethod {v w : Value} {name : String} {arguments : List Value} (h : v.RawsAre P)
    (hw : v.callMethod name arguments = .ok w) : w.RawsAre P := by
  have key : ∀ {first second}, v.method? name first second = some w → w.RawsAre P := by
    intro first second hm
    cases v with
    | string s => exact rawsAre_stringMethod hm
    | raw s => exact rawsAre_stringMethod hm
    | array items => exact rawsAre_arrayMethod (rawsAre_array.1 h) hm
    | bool b =>
      obtain ⟨-, hm⟩ := Option.ite_none_right_eq_some.1 hm
      cases hm; exact rawsAre_string _
    | number x =>
      obtain ⟨-, hm⟩ := Option.ite_none_right_eq_some.1 hm
      cases hm; exact rawsAre_string _
    | _ => cases hm
  unfold callMethod at hw
  split at hw
  · cases hw
  · split at hw
    · next hm => cases hw; exact key hm
    · cases hw

/-! ## Operators -/

theorem rawsAre_arithmetic {op : BinaryOperator} {f : Float → Float → Float} {v w u : Value}
    (h : arithmetic op f v w = .ok u) : u.RawsAre P := by
  unfold arithmetic at h
  cases hx : operand op v with
  | error e => rw [hx] at h; cases h
  | ok x =>
    cases hy : operand op w with
    | error e => rw [hx, hy] at h; cases h
    | ok y => rw [hx, hy] at h; cases h; exact rawsAre_number _

theorem rawsAre_binary {op : BinaryOperator} {v w u : Value} (hv : v.RawsAre P) (hw : w.RawsAre P)
    (h : binary op v w = .ok u) : u.RawsAre P := by
  cases op with
  | and => cases h; split <;> assumption
  | or => cases h; split <;> assumption
  | add =>
    simp only [binary, add] at h
    split at h
    · cases h; exact rawsAre_string _
    · exact rawsAre_arithmetic h
  | subtract => exact rawsAre_arithmetic h
  | multiply => exact rawsAre_arithmetic h
  | divide => exact rawsAre_arithmetic h
  | remainder => exact rawsAre_arithmetic h
  | _ => cases h; exact rawsAre_bool _

theorem rawsAre_negate {v w : Value} (h : v.negate = .ok w) : w.RawsAre P := by
  unfold negate at h
  split at h
  · cases h
  · cases h
  · cases h; exact rawsAre_number _

end Value

end TemplateView
