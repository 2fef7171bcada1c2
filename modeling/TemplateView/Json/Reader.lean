/-
Reading JSON documents. A reader takes a document from the front of a text or refuses it. Two manners of reading differ
where a document is only to be passed over: the strict one limits nesting, refuses numbers beyond the range of
floating-point, and wants paired surrogates; the lenient one asks for the grammar alone.

Numbers are read in two roundings: the digits as a 64-bit whole number, and that as a floating-point number times or
divided by a power of ten. Digits that do not fit are counted and dropped.
-/
import TemplateView.Json

namespace TemplateView.Json

/-- takes something from the front of a text -/
abbrev Reader (α : Type) := List Char → Option (α × List Char)

/-- how carefully a document is read -/
inductive Manner where
  | strict
  | lenient
deriving DecidableEq, Repr

/-- past the whitespace of documents: space, line feed, tab and carriage return -/
def skipSpace (cs : List Char) : List Char :=
  cs.dropWhile fun c => c == ' ' || c == '\n' || c == '\t' || c == '\r'

/-! ## Strings -/

def hexValue? (c : Char) : Option Nat :=
  if c.isDigit then some (c.toNat - '0'.toNat)
  else if 'a' ≤ c && c ≤ 'f' then some (c.toNat - 'a'.toNat + 10)
  else if 'A' ≤ c && c ≤ 'F' then some (c.toNat - 'A'.toNat + 10)
  else none

/-- four hexadecimal digits -/
def hexUnit : Reader Nat
  | a :: b :: c :: d :: cs => do
    let a ← hexValue? a
    let b ← hexValue? b
    let c ← hexValue? c
    let d ← hexValue? d
    return (((a * 16 + b) * 16 + c) * 16 + d, cs)
  | _ => none

def isHighSurrogate (n : Nat) : Bool := 0xD800 ≤ n && n ≤ 0xDBFF
def isLowSurrogate (n : Nat) : Bool := 0xDC00 ≤ n && n ≤ 0xDFFF

/-- what stands for a surrogate without its partner -/
def replacement : Char := Char.ofNat 0xFFFD

/-- the character behind `\u`, two units where a surrogate needs its partner -/
def unicodeEscape (manner : Manner) : Reader Char := fun cs => do
  let (n, cs) ← hexUnit cs
  if isHighSurrogate n then
    let partner : Option (Nat × List Char) :=
      match cs with
      | '\\' :: 'u' :: more => hexUnit more
      | _ => none
    match partner with
    | some (m, rest) =>
      if isLowSurrogate m then return (Char.ofNat (0x10000 + (n - 0xD800) * 0x400 + (m - 0xDC00)), rest)
      else if manner = .lenient then return (replacement, cs)
      else none
    | none => if manner = .lenient then return (replacement, cs) else none
  else if isLowSurrogate n then
    if manner = .lenient then return (replacement, cs) else none
  else
    return (Char.ofNat n, cs)

/-- one character of a string -/
def stringChar (manner : Manner) : Reader Char
  | '\\' :: c :: cs =>
    match c with
    | '"' => some ('"', cs)
    | '\\' => some ('\\', cs)
    | '/' => some ('/', cs)
    | 'b' => some ('\x08', cs)
    | 'f' => some ('\x0c', cs)
    | 'n' => some ('\n', cs)
    | 'r' => some ('\r', cs)
    | 't' => some ('\t', cs)
    | 'u' => unicodeEscape manner cs
    | _ => none
  | c :: cs => if c == '\\' || c.toNat < 0x20 then none else some (c, cs)
  | [] => none

/-- a string up to its closing quote, at most `rounds` characters of it -/
def stringTail (manner : Manner) : Nat → List Char → Reader String
  | 0, _, _ => none
  | _ + 1, text, '"' :: cs => some (String.ofList text.reverse, cs)
  | rounds + 1, text, cs => do
    let (c, cs) ← stringChar manner cs
    stringTail manner rounds (c :: text) cs

/-- a string in quotes -/
def readString (manner : Manner) : Reader String
  | '"' :: cs => stringTail manner (cs.length + 1) [] cs
  | _ => none

/-! ## Numbers -/

/-- the largest 64-bit whole number -/
def wordMax : Nat := 18446744073709551615

/-- digits taken into a whole number while it fits in 64 bits: the number, how many were taken, the rest -/
def takeDigits (n : Nat) (taken : Nat) : List Char → Nat × Nat × List Char
  | [] => (n, taken, [])
  | c :: cs =>
    let m := n * 10 + (c.toNat - '0'.toNat)
    if c.isDigit && m ≤ wordMax then takeDigits m (taken + 1) cs else (n, taken, c :: cs)

/-- ten to the power of `n`, rounded -/
def powerOfTen (n : Nat) : Float := Float.ofScientific 1 false n

/-- a rounded whole number times or divided by a power of ten, in steps of at most 10 ^ 308 on the way down -/
def scale (x : Float) (exponent : Int) : Float :=
  if 0 ≤ exponent then
    if exponent ≤ 308 then x * powerOfTen exponent.toNat else if x == 0 then x else Number.infinity false
  else if exponent.natAbs ≤ 308 then x / powerOfTen exponent.natAbs
  else if exponent.natAbs ≤ 616 then x / powerOfTen 308 / powerOfTen (exponent.natAbs - 308)
  else if exponent.natAbs ≤ 924 then x / powerOfTen 308 / powerOfTen 308 / powerOfTen (exponent.natAbs - 616)
  else Number.ofExact false 0 0

/-- a number that has a point or an exponent, or too many digits -/
def makeFloat (manner : Manner) (negative : Bool) (digits : Nat) (exponent : Int) : Option Json :=
  let x := scale (Float.ofNat digits) exponent
  if x.isFinite || manner = .lenient then some (float (if negative then -x else x)) else none

/-- the end of a number: an exponent may follow -/
def exponentPart (manner : Manner) (negative : Bool) (digits : Nat) (exponent : Int) : Reader Json
  | 'e' :: cs => exponentDigits cs
  | 'E' :: cs => exponentDigits cs
  | cs => (makeFloat manner negative digits exponent).map (·, cs)
where
  /-- an exponent beyond 32 bits is only looked at for its sign -/
  exponentDigits : Reader Json := fun cs =>
    let (down, cs) := Number.readSign cs
    let ds := cs.takeWhile Char.isDigit
    let rest := cs.dropWhile Char.isDigit
    if ds.isEmpty then none
    else
      let e : Int := Number.digitsValue 0 ds
      let total := if down then exponent - e else exponent + e
      let total := if e < 2147483648 then total else if down then -2147483648 else 2147483648
      (makeFloat manner negative digits total).map (·, rest)

/-- the end of a number: a point with at least one digit may follow, then an exponent -/
def fractionPart (manner : Manner) (negative : Bool) (digits : Nat) (exponent : Int) : Reader Json
  | '.' :: cs =>
    if cs.head?.any Char.isDigit then
      let (digits, taken, rest) := takeDigits digits 0 cs
      exponentPart manner negative digits (exponent - taken) (rest.dropWhile Char.isDigit)
    else none
  | cs => exponentPart manner negative digits exponent cs

/-- a point or an exponent is next -/
def startsFraction : List Char → Bool
  | c :: _ => c == '.' || c == 'e' || c == 'E'
  | [] => false

/-- a number without its sign; minus zero and whole numbers below the 64-bit range are floating-point -/
def readMagnitude (manner : Manner) (negative : Bool) : Reader Json := fun cs =>
  let (digits, taken, rest) := takeDigits 0 0 cs
  if taken = 0 || (cs.head? == some '0' && 1 < taken) then none
  else
    let dropped := rest.takeWhile Char.isDigit
    let rest := rest.dropWhile Char.isDigit
    if !dropped.isEmpty || startsFraction rest then fractionPart manner negative digits dropped.length rest
    else if !negative then some (integer digits, rest)
    else if digits = 0 || 9223372036854775808 < digits then some (float (-Float.ofNat digits), rest)
    else some (integer (-(digits : Int)), rest)

def readNumber (manner : Manner) : Reader Json
  | '-' :: cs => readMagnitude manner true cs
  | cs => readMagnitude manner false cs

/-! ## Documents -/

/-- the items of an array behind its bracket, at most `rounds` of them; those read before are given last first -/
def readItems (item : Reader Json) : Nat → List Json → Reader Json
  | 0, _, _ => none
  | rounds + 1, items, cs => do
    let (j, cs) ← item cs
    match skipSpace cs with
    | ',' :: cs => readItems item rounds (j :: items) cs
    | ']' :: cs => return (array (j :: items).reverse, cs)
    | _ => none

/-- the members of an object behind its brace, at most `rounds` of them; those read before are given last first -/
def readMembers (manner : Manner) (item : Reader Json) : Nat → List (String × Json) → Reader Json
  | 0, _, _ => none
  | rounds + 1, members, cs => do
    let (name, cs) ← readString manner (skipSpace cs)
    match skipSpace cs with
    | ':' :: cs =>
      let (j, cs) ← item cs
      match skipSpace cs with
      | ',' :: cs => readMembers manner item rounds ((name, j) :: members) cs
      | '\x7d' :: cs => return (object ((name, j) :: members).reverse, cs)
      | _ => none
    | _ => none

/-- a document whose arrays and objects nest at most `depth` deep -/
def readValue (manner : Manner) : Nat → Reader Json
  | depth, cs =>
    match skipSpace cs, depth with
    | 'n' :: 'u' :: 'l' :: 'l' :: cs, _ => some (null, cs)
    | 't' :: 'r' :: 'u' :: 'e' :: cs, _ => some (bool true, cs)
    | 'f' :: 'a' :: 'l' :: 's' :: 'e' :: cs, _ => some (bool false, cs)
    | '"' :: cs, _ => (readString manner ('"' :: cs)).map fun (s, cs) => (string s, cs)
    | '[' :: _, 0 => none
    | '\x7b' :: _, 0 => none
    | '[' :: cs, depth + 1 =>
      match skipSpace cs with
      | ']' :: cs => some (array [], cs)
      | cs => readItems (readValue manner depth) (cs.length + 1) [] cs
    | '\x7b' :: cs, depth + 1 =>
      match skipSpace cs with
      | '\x7d' :: cs => some (object [], cs)
      | cs => readMembers manner (readValue manner depth) (cs.length + 1) [] cs
    | cs, _ => readNumber manner cs

/-- how deep arrays and objects may nest -/
def nestingLimit : Nat := 127

/-- nothing but whitespace is left -/
def isFinished (cs : List Char) : Bool :=
  (skipSpace cs).isEmpty

/-- the document that a whole text writes -/
def parse? (text : String) : Option Json :=
  match readValue .strict nestingLimit text.toList with
  | some (j, cs) => if isFinished cs then some j else none
  | none => none

end TemplateView.Json
