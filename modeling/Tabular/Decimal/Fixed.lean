import Tabular.Decimal.Shortest

/-!
# Two decimal places

Numbers rounded to hundredths. Rounding is exact, and a half goes to the even neighbour.
-/

namespace Tabular.Decimal

/-- The whole number nearest to `n / d`; a half goes to the even neighbour. -/
def roundDiv (n d : Nat) : Nat :=
  let below := n / d
  match compare (2 * (n % d)) d with
  | .lt => below
  | .gt => below + 1
  | .eq => if below % 2 = 0 then below else below + 1

def hundredths (significand : Nat) (exponent : Int) : Nat :=
  roundDiv (100 * significand * Nat.pow 2 exponent.toNat) (Nat.pow 2 (-exponent).toNat)

/-- Two places behind the point, or none of them when both would be zeros. -/
def twoPlaces (x : Float) : String :=
  match parts x with
  | .nan => "NaN"
  | .infinite negative => if negative then "-inf" else "inf"
  | .finite negative significand exponent =>
    let n := hundredths significand exponent
    let body := if n % 100 = 0 then natChars (n / 100) else pointed (natChars n) 2
    String.ofList (if negative then '-' :: body else body)

end Tabular.Decimal
