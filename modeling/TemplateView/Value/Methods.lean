/-
Members, items and methods of values. A string is a list of characters throughout: its length, its items, positions in
it and pieces of it all count code points.
-/
import TemplateView.Value.Operators
import TemplateView.Text.Casing

namespace TemplateView.Value

/-- a property of the model; what is no object has none -/
def property (name : String) : Value → Value
  | object members => (Table.get? members name).getD null
  | _ => null

/-- `value.name` -/
def member (v : Value) (name : String) : Except RenderError Value :=
  match v with
  | null => .error (.nullReference name)
  | object members => .ok ((Table.get? members name).getD null)
  | array items => .ok (if name == "length" then number (.ofNat items.length) else null)
  | string s => .ok (if name == "length" then number (.ofNat s.toList.length) else null)
  | raw s => .ok (if name == "length" then number (.ofNat s.toList.length) else null)
  | _ => .ok null

/-- a string of one character -/
def ofChar (c : Char) : Value :=
  string (String.ofList [c])

/-- an item by its position, null where there is none -/
def itemAt (items : List Value) (x : Float) : Value :=
  ((Number.index? x).bind fun i => items[i]?).getD null

/-- `value[index]` -/
def index (v key : Value) : Except RenderError Value :=
  match v, key with
  | null, key => .error (.nullReference key.text)
  | array items, number x => .ok (itemAt items x)
  | string s, number x => .ok (itemAt (s.toList.map ofChar) x)
  | raw s, number x => .ok (itemAt (s.toList.map ofChar) x)
  | v, key => v.member key.text

/-- the values that a loop visits: items, characters, or the values of members in the order of their names -/
def iterate (v : Value) : Except RenderError (List Value) :=
  match v with
  | array items => .ok items
  | string s => .ok (s.toList.map ofChar)
  | raw s => .ok (s.toList.map ofChar)
  | object members => .ok (members.map Prod.snd)
  | v => .error (.notIterable v.typeName)

/-! ## Pieces of sequences -/

/-- a number as a position: rounded toward zero, 0 below zero and for what is no number, the largest word above all -/
def position (x : Float) : Nat :=
  x.toUInt64.toNat

/-- a bound of `slice`: negative numbers count from the end, and bounds are cut off at both ends -/
def sliceBound (length : Nat) (x : Float) : Nat :=
  if x.isNaN then 0
  else if x < 0 then position (max (.ofNat length + x) 0)
  else position (min x (.ofNat length))

/-- a bound of `substring`, cut off at both ends -/
def substringBound (length : Nat) (x : Float) : Nat :=
  if x.isNaN then 0 else position (min (max x 0) (.ofNat length))

/-- an optional bound -/
def boundOr (default : Nat) (bound : Float → Nat) : Value → Nat
  | null => default
  | v => bound v.toNumber

/-- where a piece of a sequence starts and where it ends -/
structure Range where
  start : Nat
  finish : Nat
deriving DecidableEq, Repr

/-- the range of `slice`, empty if its end would come before its start -/
def sliceRange (length : Nat) (start finish : Value) : Range :=
  let a := boundOr 0 (sliceBound length) start
  let b := boundOr length (sliceBound length) finish
  ⟨a, max a b⟩

/-- the range of `substring`, which starts at the smaller bound -/
def substringRange (length : Nat) (start finish : Value) : Range :=
  let a := substringBound length start.toNumber
  let b := boundOr length (substringBound length) finish
  ⟨min a b, max a b⟩

/-- the items in a range -/
def cut {α : Type} (range : Range) (items : List α) : List α :=
  (items.take range.finish).drop range.start

/-- the items between two bounds of `slice` -/
def slice {α : Type} (items : List α) (start finish : Value) : List α :=
  cut (sliceRange items.length start finish) items

/-- the items between two bounds of `substring` -/
def substring {α : Type} (items : List α) (start finish : Value) : List α :=
  cut (substringRange items.length start finish) items

/-- a position as a number, -1 for none -/
def positionNumber : Option Nat → Value
  | some n => number (.ofNat n)
  | none => number (-1)

/-- the parts of a text: all of it for no separator, its characters for an empty one -/
def split (s : String) (separator : Value) : List Value :=
  match separator with
  | null => [string s]
  | separator =>
    let sep := separator.text.toList
    if sep.isEmpty then s.toList.map ofChar
    else (Text.splitOn sep s.toList).map fun part => string (String.ofList part)

/-- the items joined; a comma stands for no separator -/
def join (items : List Value) (separator : Value) : String :=
  match separator with
  | null => joinItems "," items
  | separator => joinItems separator.text items

/-! ## Methods -/

/-- a method of strings and markup; the result is never markup -/
def stringMethod? (s : String) (name : String) (first second : Value) : Option Value :=
  match name with
  | "toUpperCase" => some (string (Text.upper s))
  | "toLowerCase" => some (string (Text.lower s))
  | "trim" => some (string (Text.trim s))
  | "toString" => some (string s)
  | "indexOf" => some (positionNumber ((Text.breakAt first.text.toList s.toList).map (·.1.length)))
  | "substring" => some (string (String.ofList (substring s.toList first second)))
  | "slice" => some (string (String.ofList (slice s.toList first second)))
  | "split" => some (array (split s first))
  | _ => none

/-- a method of arrays -/
def arrayMethod? (items : List Value) (name : String) (first second : Value) : Option Value :=
  match name with
  | "join" => some (string (join items first))
  | "indexOf" => some (positionNumber (items.findIdx? (strictEquals · first)))
  | "slice" => some (array (slice items first second))
  | "toString" => some (string (array items).text)
  | _ => none

/-- a method that the kind of value has; missing arguments are null -/
def method? (v : Value) (name : String) (first second : Value) : Option Value :=
  match v with
  | string s => stringMethod? s name first second
  | raw s => stringMethod? s name first second
  | array items => arrayMethod? items name first second
  | bool _ => if name == "toString" then some (string v.text) else none
  | number _ => if name == "toString" then some (string v.text) else none
  | _ => none

/-- `value.name(arguments)` -/
def callMethod (v : Value) (name : String) (arguments : List Value) : Except RenderError Value :=
  match v with
  | null => .error (.nullReference name)
  | v =>
    match v.method? name (arguments.getD 0 null) (arguments.getD 1 null) with
    | some result => .ok result
    | none => .error (.unknownMethod name v.typeName)

end TemplateView.Value
