/-
Decimal text of numbers. `shortest` finds the fewest digits that read back as the same number: of the decimal grids it
takes the coarsest that has a point within rounding distance, and there the point nearest to the exact value. A format
says how those digits are laid out and which of two equally near points is taken.

In the other direction `read?` reads a decimal and rounds it to the nearest number.
-/
import TemplateView.Number.Exact

namespace TemplateView.Number

/-! ## Shortest digits -/

/-- which of two equally near decimals is taken -/
inductive Tie where
  | up
  | even
deriving DecidableEq, Repr

/-- the point of the grid of step 10 ^ k that is within rounding distance of `mantissa · 2 ^ exponent`, and nearest to
it; `lowest` is the smallest exponent of the format, where the gap below a power of two does not shrink -/
def onGrid? (tie : Tie) (mantissa : Nat) (exponent : Int) (k : Int) : Option Nat :=
  let lowest : Int := -1074
  let below := if mantissa = 4503599627370496 && lowest < exponent then 1 else 2
  let scale := Nat.pow 2 (exponent - 2).toNat * Nat.pow 10 (-k).toNat
  let step := Nat.pow 2 (2 - exponent).toNat * Nat.pow 10 k.toNat
  let value := 4 * mantissa * scale
  let low := (4 * mantissa - below) * scale
  let high := (4 * mantissa + 2) * scale
  let down := value / step
  let up := down + 1
  let inclusive := mantissa % 2 == 0
  let downFits := low < down * step || (inclusive && low == down * step)
  let upFits := up * step < high || (inclusive && up * step == high)
  if downFits && upFits then
    let distanceDown := value - down * step
    let distanceUp := up * step - value
    if distanceDown < distanceUp then some down
    else if distanceUp < distanceDown then some up
    else if tie = .even && down % 2 == 0 then some down
    else some up
  else if downFits then some down
  else if upFits then some up
  else none

/-- the coarsest of some grids, the first of step 10 ^ k and each next ten times as fine, that has a fitting point -/
def search (tie : Tie) (mantissa : Nat) (exponent : Int) : Nat → Int → Nat × Int
  | 0, k => (mantissa, k)
  | n + 1, k =>
    match onGrid? tie mantissa exponent k with
    | some d => (d, k)
    | none => search tie mantissa exponent n (k - 1)

/-- the shortest decimal `digits · 10 ^ k` that reads back as `mantissa · 2 ^ exponent`; the search starts above the
value, by the bound log10 2 < 0.30103, and 17 digits always suffice -/
def shortest (tie : Tie) (mantissa : Nat) (exponent : Int) : Nat × Int :=
  let size := mantissa.log2 + exponent + 1
  search tie mantissa exponent 20 (Int.fdiv (size * 30103) 100000 + 1)

/-! ## Layout -/

/-- how a number is written; the exponent meant is that of the first digit -/
structure Format where
  tie : Tie
  /-- whether a number of this exponent is written without one -/
  positional : Int → Bool
  /-- what follows the digits of a whole number in positional notation -/
  wholeEnd : List Char

def zeros (n : Nat) : List Char := List.replicate n '0'

/-- digits with `point` of them before the decimal point -/
def positionalText (f : Format) (digits : List Char) (point : Int) : List Char :=
  if point ≤ 0 then ['0', '.'] ++ zeros (-point).toNat ++ digits
  else if point.toNat < digits.length then digits.take point.toNat ++ ['.'] ++ digits.drop point.toNat
  else digits ++ zeros (point.toNat - digits.length) ++ f.wholeEnd

/-- one digit, a point and the others if there are any, and the exponent with its sign -/
def exponentText (digits : List Char) (exponent : Int) : List Char :=
  digits.take 1 ++ (if digits.length ≤ 1 then [] else '.' :: digits.drop 1)
    ++ ['e', if exponent < 0 then '-' else '+'] ++ Nat.toDigits 10 exponent.natAbs

/-- a finite number without its sign -/
def magnitudeText (f : Format) (mantissa : Nat) (exponent : Int) : List Char :=
  if mantissa = 0 then '0' :: f.wholeEnd
  else
    let (d, k) := shortest f.tie mantissa exponent
    let digits := Nat.toDigits 10 d
    let point := digits.length + k
    if f.positional (point - 1) then positionalText f digits point else exponentText digits (point - 1)

/-- a finite number with its sign; infinities and what is no number by name -/
def write (f : Format) (x : Float) : String :=
  match exact x with
  | .nan => "NaN"
  | .infinite negative => if negative then "-Infinity" else "Infinity"
  | .finite negative m e => String.ofList ((if negative then ['-'] else []) ++ magnitudeText f m e)

/-- **Plain text**: never an exponent, no point behind a whole number, the upper of two equally near decimals. -/
def plain : Format := ⟨.up, fun _ => true, []⟩

/-! ## Reading -/

/-- the value of decimal digits read behind `n` -/
def digitsValue (n : Nat) (digits : List Char) : Nat :=
  digits.foldl (fun n c => n * 10 + (c.toNat - '0'.toNat)) n

/-- `mantissa · 10 ^ exponent`, rounded to the nearest number; far outside the range it is zero or infinite -/
def ofDecimal (negative : Bool) (mantissa : Nat) (exponent : Int) : Float :=
  let size := exponent + (Nat.toDigits 10 mantissa).length
  let magnitude :=
    if mantissa = 0 || size < -400 then ofExact false 0 0
    else if 400 < size then infinity false
    else Float.ofScientific mantissa (exponent < 0) exponent.natAbs
  if negative then -magnitude else magnitude

/-- a sign, if there is one, and what follows: whether it is a minus -/
def readSign : List Char → Bool × List Char
  | '-' :: cs => (true, cs)
  | '+' :: cs => (false, cs)
  | cs => (false, cs)

/-- the exponent behind a mantissa: none, or `e` and a whole number -/
def readExponent? : List Char → Option Int
  | [] => some 0
  | c :: cs =>
    let (negative, digits) := readSign cs
    if (c == 'e' || c == 'E') && !digits.isEmpty && digits.all Char.isDigit then
      some (signed negative (digitsValue 0 digits))
    else none

/-- a decimal with digits before or behind its point -/
def readMagnitude? (negative : Bool) (cs : List Char) : Option Float :=
  let whole := cs.takeWhile Char.isDigit
  let rest := cs.dropWhile Char.isDigit
  let (fraction, rest) :=
    match rest with
    | '.' :: more => (more.takeWhile Char.isDigit, more.dropWhile Char.isDigit)
    | _ => ([], rest)
  if whole.isEmpty && fraction.isEmpty then none
  else
    (readExponent? rest).map fun e =>
      ofDecimal negative (digitsValue (digitsValue 0 whole) fraction) (e - fraction.length)

/-- the number that a text writes: a decimal, or a name for infinity or for what is no number in letters of any case -/
def read? (s : String) : Option Float :=
  let (negative, cs) := readSign s.toList
  let name := String.ofList (cs.map Char.toLower)
  if name == "inf" || name == "infinity" then some (infinity negative)
  else if name == "nan" then some nan
  else readMagnitude? negative cs

end TemplateView.Number
