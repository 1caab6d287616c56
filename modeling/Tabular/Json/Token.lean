import Tabular.Json.Basic
import Tabular.Json.Error
import Tabular.Decimal.Numeral

/-!
# The leaves of JSON text

Blanks, words, strings and numbers.
-/

namespace Tabular.Json

abbrev Reader (α : Type) := List Char → Except Stop (α × List Char)

def isSpace (c : Char) : Bool :=
  c == ' ' || c == '\n' || c == '\t' || c == '\r'

def skipSpace (cs : List Char) : List Char :=
  cs.dropWhile isSpace

/-- The rest of a word whose first letter has been read. -/
def readWord : List Char → Reader Unit
  | [], cs => .ok ((), cs)
  | _ :: _, [] => .error (stopAt .endInValue [])
  | w :: word, c :: cs =>
    if c = w then readWord word cs else .error (stopBehind .expectedWord (c :: cs))

def hexDigit? (c : Char) : Option Nat :=
  if c.isDigit then some (c.toNat - '0'.toNat)
  else if 'a' ≤ c ∧ c ≤ 'f' then some (c.toNat - 'a'.toNat + 10)
  else if 'A' ≤ c ∧ c ≤ 'F' then some (c.toNat - 'A'.toNat + 10)
  else none

def fourHexDigits? : List Char → Option Nat
  | [a, b, c, d] => do
    let a ← hexDigit? a
    let b ← hexDigit? b
    let c ← hexDigit? c
    let d ← hexDigit? d
    return ((a * 16 + b) * 16 + c) * 16 + d
  | _ => none

/-- Four hexadecimal digits. A flaw among them shows four bytes further on. -/
def readHex : Reader Nat := fun cs =>
  if byteCount cs < 4 then .error ⟨.endInString, 0⟩
  else
    match fourHexDigits? (cs.take 4) with
    | some n => .ok (n, cs.drop 4)
    | none => .error ⟨.invalidEscape, byteCount cs - 4⟩

def isLeadingSurrogate (n : Nat) : Bool :=
  0xd800 ≤ n && n ≤ 0xdbff

def isTrailingSurrogate (n : Nat) : Bool :=
  0xdc00 ≤ n && n ≤ 0xdfff

def readPairMark (mark : Char) : Reader Unit
  | [] => .error (stopAt .endInString [])
  | c :: cs => if c = mark then .ok ((), cs) else .error (stopBehind .unpairedSurrogate (c :: cs))

/-- The character of a `\u` escape, which takes a second escape when the first is a surrogate. -/
def readUnicodeEscape : Reader Char := fun cs => do
  let (n, cs) ← readHex cs
  if isTrailingSurrogate n then throw (stopAt .loneSurrogate cs)
  if isLeadingSurrogate n then
    let ((), cs) ← readPairMark '\\' cs
    let ((), cs) ← readPairMark 'u' cs
    let (m, cs) ← readHex cs
    if isTrailingSurrogate m then
      return (Char.ofNat ((n - 0xd800) * 0x400 + (m - 0xdc00) + 0x10000), cs)
    else throw (stopAt .loneSurrogate cs)
  else return (Char.ofNat n, cs)

def readEscape : Reader Char
  | [] => .error (stopAt .endInString [])
  | c :: cs =>
    match c with
    | '"' | '\\' | '/' => .ok (c, cs)
    | 'b' => .ok ('\x08', cs)
    | 'f' => .ok ('\x0c', cs)
    | 'n' => .ok ('\n', cs)
    | 'r' => .ok ('\r', cs)
    | 't' => .ok ('\t', cs)
    | 'u' => readUnicodeEscape cs
    | _ => .error (stopBehind .invalidEscape (c :: cs))

def readStringAux (escape : Reader Char) : Nat → List Char → Reader (List Char)
  | 0, _, cs => .error (stopAt .endInString cs)
  | _ + 1, _, [] => .error (stopAt .endInString [])
  | fuel + 1, soFar, c :: cs =>
    if c = '"' then .ok (soFar.reverse, cs)
    else if c = '\\' then do
      let (escaped, cs) ← escape cs
      readStringAux escape fuel (escaped :: soFar) cs
    else if c.toNat < 0x20 then .error (stopAt .controlCharacter cs)
    else readStringAux escape fuel (c :: soFar) cs

def readString : Reader String := fun cs => do
  let (chars, cs) ← readStringAux readEscape (cs.length + 1) [] cs
  return (String.ofList chars, cs)

/-- The first number that does not fit into 64 bits. -/
def wordBound : Nat := 0x10000000000000000

def isDigitNext : List Char → Bool
  | c :: _ => c.isDigit
  | [] => false

def powerOfTen (n : Nat) : Float :=
  Decimal.nearest 1 n

/-- `x` times or divided by powers of ten up to the 308th, the largest one that is finite. -/
def scaleFloat (rest : List Char) : Nat → Float → Int → Except Stop Float
  | 0, x, _ => .ok x
  | fuel + 1, x, exponent =>
    if exponent.natAbs ≤ 308 then
      if 0 ≤ exponent then
        let y := x * powerOfTen exponent.natAbs
        if y.isInf then .error (stopAt .numberOutOfRange rest) else .ok y
      else .ok (x / powerOfTen exponent.natAbs)
    else if x == 0 then .ok x
    else if 0 ≤ exponent then .error (stopAt .numberOutOfRange rest)
    else scaleFloat rest fuel (x / powerOfTen 308) (exponent + 308)

def negateIf (negative : Bool) (x : Float) : Float :=
  if negative then -x else x

/-- The float with the kept digits and the exponent, in front of `rest`. -/
def finishFloat (negative : Bool) (digits : Nat) (exponent : Int) (rest : List Char) :
    Except Stop (Json × List Char) := do
  let x ← scaleFloat rest 4 (Float.ofInt digits) exponent
  return (float (negateIf negative x), rest)

/-- Reads a run of digits while the number that they continue stays under the bound. Gives the
number, the count of digits taken, and the rest. -/
def readDigits (bound : Nat) : Nat → Nat → List Char → Nat × Nat × List Char
  | n, count, [] => (n, count, [])
  | n, count, c :: cs =>
    if c.isDigit then
      let next := n * 10 + (c.toNat - '0'.toNat)
      if next < bound then readDigits bound next (count + 1) cs else (n, count, c :: cs)
    else (n, count, c :: cs)

def exponentBound : Nat := 0x80000000

def readExponent (negative : Bool) (digits : Nat) (exponent : Int) : Reader Json := fun cs =>
  let (down, cs) :=
    match cs with
    | '+' :: cs => (false, cs)
    | '-' :: cs => (true, cs)
    | cs => (false, cs)
  match cs with
  | [] => .error (stopAt .endInValue [])
  | c :: _ =>
    if c.isDigit then
      let (n, _, rest) := readDigits exponentBound 0 0 cs
      if isDigitNext rest then
        if digits ≠ 0 ∧ !down then .error (stopAt .numberOutOfRange (rest.drop 1))
        else .ok (float (negateIf negative 0), rest.dropWhile Char.isDigit)
      else finishFloat negative digits (if down then exponent - n else exponent + n) rest
    else .error (stopBehind .invalidNumber cs)

def readFloatEnd (negative : Bool) (digits : Nat) (exponent : Int) : Reader Json := fun cs =>
  match cs with
  | 'e' :: more | 'E' :: more => readExponent negative digits exponent more
  | _ => finishFloat negative digits exponent cs

def readFraction (negative : Bool) (digits : Nat) (exponent : Int) : Reader Json := fun cs =>
  let (n, count, rest) := readDigits wordBound digits 0 cs
  if isDigitNext rest then
    readFloatEnd negative n (exponent - count) (rest.dropWhile Char.isDigit)
  else if count = 0 then
    .error (if rest = [] then stopAt .endInValue [] else stopBehind .invalidNumber rest)
  else readFloatEnd negative n (exponent - count) rest

def readNumberEnd (negative : Bool) (digits : Nat) : Reader Json := fun cs =>
  match cs with
  | '.' :: more => readFraction negative digits 0 more
  | 'e' :: more | 'E' :: more => readExponent negative digits 0 more
  | _ =>
    if !negative then .ok (int digits, cs)
    else if digits = 0 ∨ 0x8000000000000000 < digits then .ok (float (-(Float.ofInt digits)), cs)
    else .ok (int (-(digits : Int)), cs)

def readNumber (negative : Bool) : Reader Json
  | [] => .error (stopAt .endInValue [])
  | c :: cs =>
    if c = '0' then
      if isDigitNext cs then .error (stopBehind .invalidNumber cs) else readNumberEnd negative 0 cs
    else if c.isDigit then
      let (n, _, rest) := readDigits wordBound 0 0 (c :: cs)
      if isDigitNext rest then
        let extra := rest.takeWhile Char.isDigit
        match rest.dropWhile Char.isDigit with
        | '.' :: more => readFraction negative n extra.length more
        | other => readFloatEnd negative n extra.length other
      else readNumberEnd negative n rest
    else .error (stopBehind .invalidNumber (c :: cs))

end Tabular.Json
