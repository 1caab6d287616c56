/-!
# Integers in decimal

Reading and writing integers, and the 64-bit words among them. Reading takes an optional sign and
at least one ASCII digit; leading zeros are allowed.
-/

namespace Tabular.Decimal

def natChars (n : Nat) : List Char :=
  Nat.toDigits 10 n

def natText (n : Nat) : String :=
  String.ofList (natChars n)

def intChars (n : Int) : List Char :=
  if n < 0 then '-' :: natChars n.natAbs else natChars n.natAbs

def intText (n : Int) : String :=
  String.ofList (intChars n)

def readNat? (cs : List Char) : Option Nat :=
  if cs ≠ [] ∧ cs.all Char.isDigit then some (Nat.ofDigitChars 10 cs 0) else none

def readSign : List Char → Bool × List Char
  | '-' :: cs => (true, cs)
  | '+' :: cs => (false, cs)
  | cs => (false, cs)

def readInt? (cs : List Char) : Option Int :=
  let (negative, digits) := readSign cs
  (readNat? digits).map fun n => if negative then -(n : Int) else n

/-- The word with the value `n`, when there is one. -/
def word? (n : Int) : Option Int64 :=
  if -0x8000000000000000 ≤ n ∧ n < 0x8000000000000000 then some (Int64.ofInt n) else none

/-- The word nearest to `n`. -/
def nearestWord (n : Int) : Int64 :=
  if n < -0x8000000000000000 then Int64.minValue
  else if 0x8000000000000000 ≤ n then Int64.maxValue
  else Int64.ofInt n

def readWord? (cs : List Char) : Option Int64 :=
  (readInt? cs).bind word?

def wordText (w : Int64) : String :=
  intText w.toInt

def addWords? (a b : Int64) : Option Int64 :=
  word? (a.toInt + b.toInt)

/-- One past the largest index of a column or of a level. -/
def indexBound : Nat := 0x10000000000000000

/-- Reads an index. A minus sign is refused, also before zero. -/
def readIndex? : List Char → Option Nat
  | '+' :: cs => (readNat? cs).filter (· < indexBound)
  | cs => (readNat? cs).filter (· < indexBound)

theorem readNat?_natChars (n : Nat) : readNat? (natChars n) = some n := by
  have digits : ∀ c ∈ Nat.toDigits 10 n, c.isDigit := fun c h =>
    Nat.isDigit_of_mem_toDigits (by decide) (by decide) h
  have notNil : Nat.toDigits 10 n ≠ [] := Nat.toDigits_ne_nil
  simp only [readNat?, natChars, notNil, ne_eq, not_false_eq_true, List.all_eq_true, true_and]
  rw [if_pos digits, Nat.ofDigitChars_ten_toDigits]

theorem toInt_of_word?_eq_some {n : Int} {w : Int64} (h : word? n = some w) : w.toInt = n := by
  unfold word? at h
  split at h
  · rename_i bounds
    cases h
    exact Int64.toInt_ofInt_of_le (by omega) (by omega)
  · cases h

theorem word?_toInt (w : Int64) : word? w.toInt = some w := by
  have least := Int64.le_toInt w
  have most := Int64.toInt_lt w
  unfold word?
  rw [if_pos (by omega), Int64.ofInt_toInt]

end Tabular.Decimal
