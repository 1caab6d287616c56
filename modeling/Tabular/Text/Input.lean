import Tabular.Text.Split

/-!
# Input bytes as marks

Input is a list of bytes that should be UTF-8. A mark is a character of the input, or a byte that
belongs to no character. Line feeds and the other ASCII characters never occur inside the encoding
of another character, so lines and fields can be cut in the list of marks, and a stretch is valid
text exactly when all its marks are characters.
-/

namespace Tabular.Text

inductive Mark where
  | char (c : Char)
  | stray (byte : UInt8)
  deriving DecidableEq, Repr

abbrev Input := List Mark

def Input.ofText (s : String) : Input :=
  s.toList.map Mark.char

def chars? : List Mark → Option (List Char)
  | [] => some []
  | .char c :: marks => (chars? marks).map (c :: ·)
  | .stray _ :: _ => none

def text? (marks : List Mark) : Option String :=
  (chars? marks).map String.ofList

def continuation? (byte : UInt8) : Option Nat :=
  if 0x80 ≤ byte.toNat ∧ byte.toNat < 0xc0 then some (byte.toNat - 0x80) else none

/-- The character at the front of the bytes, with the number of further bytes that it takes.
Overlong forms, surrogates and numbers past the last code point encode nothing. -/
def decodeFirst? : List UInt8 → Option (Char × Nat)
  | [] => none
  | a :: more =>
    let a := a.toNat
    if a < 0x80 then some (Char.ofNat a, 0)
    else if 0xc2 ≤ a ∧ a < 0xe0 then
      match more with
      | b :: _ => (continuation? b).map (fun b => (Char.ofNat ((a - 0xc0) * 0x40 + b), 1))
      | _ => none
    else if 0xe0 ≤ a ∧ a < 0xf0 then
      match more with
      | b :: c :: _ =>
        (continuation? b).bind fun b => (continuation? c).bind fun c =>
          let n := (a - 0xe0) * 0x1000 + b * 0x40 + c
          if 0x800 ≤ n ∧ (n < 0xd800 ∨ 0xe000 ≤ n) then some (Char.ofNat n, 2) else none
      | _ => none
    else if 0xf0 ≤ a ∧ a < 0xf5 then
      match more with
      | b :: c :: d :: _ =>
        (continuation? b).bind fun b => (continuation? c).bind fun c =>
          (continuation? d).bind fun d =>
            let n := (a - 0xf0) * 0x40000 + b * 0x1000 + c * 0x40 + d
            if 0x10000 ≤ n ∧ n < 0x110000 then some (Char.ofNat n, 3) else none
      | _ => none
    else none

/-- `skip` counts the bytes of the last character that are still to be passed over. -/
def decodeAux : Nat → List UInt8 → Input
  | _, [] => []
  | skip + 1, _ :: bytes => decodeAux skip bytes
  | 0, byte :: bytes =>
    match decodeFirst? (byte :: bytes) with
    | some (c, more) => .char c :: decodeAux more bytes
    | none => .stray byte :: decodeAux 0 bytes

def Input.ofBytes (bytes : List UInt8) : Input :=
  decodeAux 0 bytes

/-- Cuts behind every line feed. A line loses its line feed and one carriage return before it; what
follows the last line feed is a line too, kept as it is, unless it is empty. -/
def Input.lines (input : Input) : List (List Mark) :=
  let pieces := piecesBy (· == .char '\n') input
  let ended := pieces.dropLast.map fun line =>
    if line.getLast? = some (.char '\r') then line.dropLast else line
  match pieces.getLast? with
  | none | some [] => ended
  | some rest => ended ++ [rest]

/-- The leading lines that are valid text, and whether a line follows them that is not. -/
def validLines : List (List Mark) → List String × Bool
  | [] => ([], false)
  | line :: lines =>
    match text? line with
    | some s => let (more, broken) := validLines lines; (s :: more, broken)
    | none => ([], true)

@[simp] theorem chars?_map_char (cs : List Char) : chars? (cs.map Mark.char) = some cs := by
  induction cs with
  | nil => rfl
  | cons c cs ih => simp [chars?, ih]

@[simp] theorem text?_ofText (s : String) : text? (Input.ofText s) = some s := by
  simp [text?, Input.ofText]

end Tabular.Text
