/-
Floating-point numbers as exact values. A finite number is a whole number of units of a power of two; whole numbers
and remainders are worked out on those, without rounding.
-/
namespace TemplateView.Number

/-- a floating-point number without its packing: `mantissa · 2 ^ exponent`, negated if `negative` -/
inductive Exact where
  | nan
  | infinite (negative : Bool)
  | finite (negative : Bool) (mantissa : Nat) (exponent : Int)
deriving DecidableEq, Repr

def isNegative : Float.Model.UnpackedFloat.Sign → Bool
  | .negative => true
  | .positive => false

/-- the exact value of a number; a zero has the mantissa 0 -/
def exact (x : Float) : Exact :=
  match x.toModel.unpack with
  | .notANumber => .nan
  | .infinity s => .infinite (isNegative s)
  | .zero s => .finite (isNegative s) 0 0
  | .finite s m e _ => .finite (isNegative s) m e

/-- a natural number with a sign -/
def signed (negative : Bool) (n : Nat) : Int :=
  if negative then -(n : Int) else n

/-- the value of a whole number -/
def whole? (x : Float) : Option Int :=
  match exact x with
  | .finite negative m (.ofNat e) => some (signed negative (m * Nat.pow 2 e))
  | .finite negative m (.negSucc e) =>
    if m % Nat.pow 2 (e + 1) = 0 then some (signed negative (m / Nat.pow 2 (e + 1))) else none
  | _ => none

/-- the value of a whole number that is not negative -/
def index? (x : Float) : Option Nat :=
  match whole? x with
  | some (.ofNat n) => some n
  | _ => none

/-- whole numbers below 10 ^ 15 on either side of zero, which are shown without a point -/
def plainWhole? (x : Float) : Option Int :=
  match whole? x with
  | some n => if n.natAbs < 1000000000000000 then some n else none
  | none => none

/-- the number with a sign and an exact value, rounded to nearest, ties to even -/
def ofExact (negative : Bool) (mantissa : Nat) (exponent : Int) : Float :=
  let sign : Float.Model.UnpackedFloat.Sign := if negative then .negative else .positive
  .ofModel (.pack (if mantissa = 0 then .zero sign else .round .binary64 sign mantissa exponent))

def nan : Float := .ofModel (.pack .notANumber)

/-- the infinity with a sign -/
def infinity (negative : Bool) : Float :=
  .ofModel (.pack (.infinity (if negative then .negative else .positive)))

/-- the remainder of a division that truncates toward zero, exact and with the sign of the dividend -/
def remainder (x y : Float) : Float :=
  match exact x, exact y with
  | .finite negative m e, .finite _ n d =>
    if n = 0 then nan
    else
      let unit := min e d
      ofExact negative (m * Nat.pow 2 (e - unit).toNat % (n * Nat.pow 2 (d - unit).toNat)) unit
  | .finite .., .infinite _ => x
  | _, _ => nan

end TemplateView.Number
