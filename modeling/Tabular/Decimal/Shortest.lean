import Tabular.Decimal.Binary

/-!
# The shortest decimal

The fewest digits that read back as a given double-precision number, and among those the nearest to
it. The numbers that read back form an interval around the number; a decimal grid with steps of a
power of ten has a point in it exactly when one of the two grid points next to the number lies in
it. Grids are tried from the coarsest to the finest.
-/

namespace Tabular.Decimal

structure Scaled where
  digits : Nat
  exponent : Int
  deriving DecidableEq, Repr

/-- The number itself and the ends of the interval that reads back as it, each over the common
denominator. The ends belong to the interval when the significand is even. -/
structure Neighbourhood where
  low : Nat
  value : Nat
  high : Nat
  denominator : Nat
  closed : Bool

/-- The interval of `significand * 2 ^ exponent`, for a significand that is not zero. Below a power
of two the numbers lie twice as close. -/
def neighbourhood (significand : Nat) (exponent : Int) : Neighbourhood :=
  let low := if significand = Nat.pow 2 52 ∧ -1074 < exponent then 4 * significand - 1
    else 4 * significand - 2
  let up := Nat.pow 2 exponent.toNat
  { low := low * up
    value := 4 * significand * up
    high := (4 * significand + 2) * up
    denominator := 4 * Nat.pow 2 (-exponent).toNat
    closed := significand % 2 == 0 }

namespace Neighbourhood

def contains (r : Neighbourhood) (n : Nat) (e : Int) : Bool :=
  let point := n * Nat.pow 10 e.toNat * r.denominator
  let scale := Nat.pow 10 (-e).toNat
  if r.closed then decide (r.low * scale ≤ point) && decide (point ≤ r.high * scale)
  else decide (r.low * scale < point) && decide (point < r.high * scale)

/-- The grid point of step `10 ^ e` at or below the number. -/
def floorAt (r : Neighbourhood) (e : Int) : Nat :=
  r.value * Nat.pow 10 (-e).toNat / (r.denominator * Nat.pow 10 e.toNat)

def compareHalf (r : Neighbourhood) (e : Int) : Ordering :=
  let step := r.denominator * Nat.pow 10 e.toNat
  compare (2 * (r.value * Nat.pow 10 (-e).toNat % step)) step

/-- A grid point of step `10 ^ e` in the interval, the nearer one if there are two; of two at the
same distance the even one. -/
def pointAt? (r : Neighbourhood) (e : Int) : Option Nat :=
  let below := r.floorAt e
  match r.contains below e, r.contains (below + 1) e with
  | false, false => none
  | true, false => some below
  | false, true => some (below + 1)
  | true, true =>
    match r.compareHalf e with
    | .lt => some below
    | .gt => some (below + 1)
    | .eq => some (if below % 2 = 0 then below else below + 1)

/-- Tries grids from the step `10 ^ e` on, each ten times finer than the one before. -/
def search (r : Neighbourhood) : Nat → Int → Scaled
  | 0, e => ⟨r.floorAt e, e⟩
  | more + 1, e =>
    match r.pointAt? e with
    | some n => if n = 0 then r.search more (e - 1) else ⟨n, e⟩
    | none => r.search more (e - 1)

/-- The number of digits before the point, or minus the number of zeros after it. -/
def magnitude (r : Neighbourhood) : Int :=
  let whole := r.value / r.denominator
  if whole = 0 then 1 - ((natChars (r.denominator / r.value)).length : Int)
  else (natChars whole).length

end Neighbourhood

/-- The shortest decimal of a finite number that is not zero, without its sign. -/
def shortest (significand : Nat) (exponent : Int) : Scaled :=
  let r := neighbourhood significand exponent
  r.search 22 (r.magnitude + 1)

structure Style where
  /-- The scientific exponents that are written with a point instead. -/
  lowest : Int
  highest : Int
  /-- Written behind a number without digits after the point. -/
  wholeTail : String
  /-- Written between `e` and an exponent that is not negative. -/
  exponentSign : String
  nan : String
  infinity : String

def pointed (digits : List Char) (places : Nat) : List Char :=
  let padded := List.replicate (places + 1 - digits.length) '0' ++ digits
  padded.take (padded.length - places) ++ '.' :: padded.drop (padded.length - places)

def Style.writeScaled (style : Style) (n : Scaled) : List Char :=
  let digits := natChars n.digits
  let scientific := n.exponent + digits.length - 1
  if style.lowest ≤ scientific ∧ scientific ≤ style.highest then
    if 0 ≤ n.exponent then
      digits ++ List.replicate n.exponent.toNat '0' ++ style.wholeTail.toList
    else pointed digits (-n.exponent).toNat
  else
    let mantissa :=
      match digits with
      | [] | [_] => digits
      | d :: more => d :: '.' :: more
    let sign := if scientific < 0 then "" else style.exponentSign
    mantissa ++ 'e' :: sign.toList ++ intChars scientific

/-- The number in the given style, with the fewest digits that read back. -/
def Style.write (style : Style) (x : Float) : String :=
  match parts x with
  | .nan => style.nan
  | .infinite negative => if negative then "-" ++ style.infinity else style.infinity
  | .finite negative significand exponent =>
    let body :=
      if significand = 0 then '0' :: style.wholeTail.toList
      else style.writeScaled (shortest significand exponent)
    String.ofList (if negative then '-' :: body else body)

def plainStyle : Style where
  lowest := -1000
  highest := 1000
  wholeTail := ""
  exponentSign := ""
  nan := "NaN"
  infinity := "inf"

end Tabular.Decimal
