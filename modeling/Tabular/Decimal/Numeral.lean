import Tabular.Decimal.Binary

/-!
# Numerals

The texts of double-precision numbers: an optional sign, then `inf`, `infinity` or `nan` in any
case, or digits with an optional point and an optional exponent. Digits stand on at least one side
of the point.
-/

namespace Tabular.Decimal

/-- What a numeral denotes. The sign of a number that is not a number shows in the total order
only. -/
inductive Numeral where
  | number (x : Float)
  | nan (negative : Bool)
  deriving DecidableEq

namespace Numeral

def toFloat : Numeral → Float
  | number x => x
  | nan _ => notANumber

/-- The place in the total order of bit patterns. -/
def rank : Numeral → Int
  | number x => Decimal.rank x
  | nan negative =>
    let place := Decimal.rank notANumber
    if negative then -place - 1 else place

end Numeral

/-- Past this power of ten every number is infinite, and below its negative every number is zero. -/
def exponentReach : Int := 400

/-- The double-precision number nearest to `digits * 10 ^ exponent`. -/
def nearest (digits : Nat) (exponent : Int) : Float :=
  if digits = 0 then 0
  else
    let magnitude := exponent + (natChars digits).length
    if exponentReach < magnitude then infinity
    else if magnitude < -exponentReach then 0
    else Float.ofScientific digits (exponent < 0) exponent.natAbs

def lowerAscii (cs : List Char) : List Char :=
  cs.map Char.toLower

/-- The exponent mark and a whole number, or nothing. -/
def readExponent? : List Char → Option Int
  | [] => some 0
  | c :: cs => if c = 'e' ∨ c = 'E' then readInt? cs else none

def readMagnitude? (cs : List Char) : Option Float :=
  let whole := cs.takeWhile Char.isDigit
  let rest := cs.dropWhile Char.isDigit
  let (fraction, rest) :=
    match rest with
    | '.' :: more => (more.takeWhile Char.isDigit, more.dropWhile Char.isDigit)
    | _ => ([], rest)
  if whole ++ fraction = [] then none
  else
    (readExponent? rest).map fun exponent =>
      nearest (Nat.ofDigitChars 10 (whole ++ fraction) 0) (exponent - fraction.length)

def readNumeral? (cs : List Char) : Option Numeral :=
  let (negative, body) := readSign cs
  let signed (x : Float) : Numeral := .number (if negative then -x else x)
  let word := lowerAscii body
  if word = "inf".toList ∨ word = "infinity".toList then some (signed infinity)
  else if word = "nan".toList then some (.nan negative)
  else (readMagnitude? body).map signed

def readFloat? (cs : List Char) : Option Float :=
  (readNumeral? cs).map Numeral.toFloat

/-- A numeral that denotes a finite number. -/
def readFinite? (cs : List Char) : Option Float :=
  (readFloat? cs).filter Float.isFinite

end Tabular.Decimal
