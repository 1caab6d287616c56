import Tabular.Decimal.Integer

/-!
# Binary numbers in detail

The parts of a double-precision number, its whole part, and the total order of its bit patterns.
-/

namespace Tabular.Decimal

/-- What a double-precision number denotes. A finite number is `± significand * 2 ^ exponent`. -/
inductive Parts where
  | nan
  | infinite (negative : Bool)
  | finite (negative : Bool) (significand : Nat) (exponent : Int)
  deriving DecidableEq, Repr

def parts (x : Float) : Parts :=
  let bits : Nat := x.toBits.toNat
  let negative := decide (Nat.pow 2 63 ≤ bits)
  let field : Nat := bits / Nat.pow 2 52 % Nat.pow 2 11
  let fraction : Nat := bits % Nat.pow 2 52
  if field = Nat.pow 2 11 - 1 then
    if fraction = 0 then .infinite negative else .nan
  else if field = 0 then .finite negative fraction (-1074)
  else .finite negative (fraction + Nat.pow 2 52) (field - 1075)

def shift (n : Nat) (e : Int) : Nat :=
  if 0 ≤ e then n * Nat.pow 2 e.toNat else n / Nat.pow 2 (-e).toNat

def wholePart? (x : Float) : Option Int :=
  match parts x with
  | .finite negative significand exponent =>
    let n := shift significand exponent
    some (if negative then -(n : Int) else n)
  | _ => none

def isWhole (x : Float) : Bool :=
  match parts x with
  | .finite _ significand exponent =>
    decide (0 ≤ exponent) || significand % Nat.pow 2 (-exponent).toNat == 0
  | _ => false

/-- The word next to `x` on the side of zero, or the nearest word when `x` is too large for one;
zero for a number that is not a number. -/
def toWord (x : Float) : Int64 :=
  match parts x with
  | .nan => 0
  | .infinite negative => if negative then Int64.minValue else Int64.maxValue
  | .finite .. => nearestWord ((wholePart? x).getD 0)

/-- The double-precision number nearest to a word. -/
def ofWord (w : Int64) : Float :=
  Float.ofInt w.toInt

/-- The number `± significand * 2 ^ exponent`, for a significand below `2 ^ 53` and an exponent from
`-1074` on that together are not too large. -/
def compose (negative : Bool) (significand : Nat) (exponent : Int) : Float :=
  let room := min (52 - significand.log2) (exponent + 1074).toNat
  let scaled := significand * Nat.pow 2 room
  let field := if scaled < Nat.pow 2 52 then 0 else (exponent - room + 1075).toNat
  let sign := if negative then Nat.pow 2 63 else 0
  Float.ofBits (UInt64.ofNat (sign + field * Nat.pow 2 52 + scaled % Nat.pow 2 52))

/-- What is left of `x` after the largest multiple of `y` that is not larger in magnitude has been
taken away; it has the sign of `x` and is exact. -/
def remainder (x y : Float) : Float :=
  match parts x, parts y with
  | .finite negative m e, .finite _ n f =>
    if n = 0 then 0 / 0
    else
      let unit := min e f
      compose negative (m * Nat.pow 2 (e - unit).toNat % (n * Nat.pow 2 (f - unit).toNat)) unit
  | .finite .., .infinite _ => x
  | _, _ => 0 / 0

/-- Places the bit patterns on a line: negative numbers lie in reverse order below the positive
ones, and `-0` lies just below `0`. -/
def rank (x : Float) : Int :=
  let bits : Nat := x.toBits.toNat
  if Nat.pow 2 63 ≤ bits then -((bits - Nat.pow 2 63 : Nat) : Int) - 1 else bits

def infinity : Float := Float.ofBits 0x7ff0000000000000

def notANumber : Float := Float.ofBits 0x7ff8000000000000

end Tabular.Decimal
