import Tabular.Json.Reader

/-!
# Passing over JSON

Values that nobody asks for are checked for their form only: numbers may be out of range, surrogates
may be alone, and there is no limit to nesting.
-/

namespace Tabular.Json

def skipEscape : Reader Unit
  | [] => .error (stopAt .endInString [])
  | c :: cs =>
    if ['"', '\\', '/', 'b', 'f', 'n', 'r', 't'].contains c then .ok ((), cs)
    else if c = 'u' then do
      let (_, cs) ← readHex cs
      return ((), cs)
    else .error (stopBehind .invalidEscape (c :: cs))

def skipStringAux : Nat → Reader Unit
  | 0, cs => .error (stopAt .endInString cs)
  | _ + 1, [] => .error (stopAt .endInString [])
  | fuel + 1, c :: cs =>
    if c = '"' then .ok ((), cs)
    else if c = '\\' then do
      let ((), cs) ← skipEscape cs
      skipStringAux fuel cs
    else if c.toNat < 0x20 then .error (stopAt .controlCharacter (c :: cs))
    else skipStringAux fuel cs

/-- A string whose opening quote has been read. -/
def skipString : Reader Unit := fun cs => skipStringAux (cs.length + 1) cs

def skipDigits : Reader Unit
  | [] => .error (stopAt .invalidNumber [])
  | c :: cs =>
    if c.isDigit then .ok ((), cs.dropWhile Char.isDigit)
    else .error (stopBehind .invalidNumber (c :: cs))

def skipExponent : Reader Unit
  | '+' :: cs | '-' :: cs => skipDigits cs
  | cs => skipDigits cs

def skipNumberEnd : Reader Unit
  | '.' :: cs => do
    let ((), cs) ← skipDigits cs
    match cs with
    | 'e' :: cs | 'E' :: cs => skipExponent cs
    | cs => return ((), cs)
  | 'e' :: cs | 'E' :: cs => skipExponent cs
  | cs => .ok ((), cs)

def skipNumber : Reader Unit
  | '0' :: cs =>
    if isDigitNext cs then .error (stopBehind .invalidNumber cs) else skipNumberEnd cs
  | cs => do
    let ((), cs) ← skipDigits cs
    skipNumberEnd cs

def skipName (cs : List Char) : Except Stop (List Char) :=
  match skipSpace cs with
  | [] => .error (stopAt .endInObject [])
  | '"' :: cs => do
    let ((), cs) ← skipString cs
    let ((), cs) ← readColon cs
    return cs
  | cs => .error (stopBehind .keyNotString cs)

mutual

/-- A value. The fuel bounds the number of values and of marks between them. -/
def skipValue : Nat → Reader Unit
  | 0, cs => .error (stopAt .endInValue cs)
  | fuel + 1, cs =>
    match skipSpace cs with
    | [] => .error (stopAt .endInValue [])
    | c :: cs =>
      match c with
      | '[' => skipItems fuel true cs
      | '\x7b' => skipMembers fuel true cs
      | 'n' => readWord "ull".toList cs
      | 't' => readWord "rue".toList cs
      | 'f' => readWord "alse".toList cs
      | '-' => skipNumber cs
      | '"' => skipString cs
      | c =>
        if c.isDigit then skipNumber (c :: cs)
        else .error (stopBehind .expectedValue (c :: cs))

def skipItems : Nat → Bool → Reader Unit
  | 0, _, cs => .error (stopAt .endInList cs)
  | fuel + 1, first, cs =>
    match skipSpace cs with
    | [] => .error (stopAt .endInList [])
    | ']' :: cs => .ok ((), cs)
    | c :: cs =>
      if first then do
        let ((), cs) ← skipValue fuel (c :: cs)
        skipItems fuel false cs
      else if c = ',' then do
        let ((), cs) ← skipValue fuel cs
        skipItems fuel false cs
      else .error (stopBehind .expectedListCommaOrEnd (c :: cs))

def skipMembers : Nat → Bool → Reader Unit
  | 0, _, cs => .error (stopAt .endInObject cs)
  | fuel + 1, first, cs =>
    match skipSpace cs with
    | [] => .error (stopAt .endInObject [])
    | '\x7d' :: cs => .ok ((), cs)
    | c :: cs =>
      if first then do
        let cs ← skipName (c :: cs)
        let ((), cs) ← skipValue fuel cs
        skipMembers fuel false cs
      else if c = ',' then do
        let cs ← skipName cs
        let ((), cs) ← skipValue fuel cs
        skipMembers fuel false cs
      else .error (stopBehind .expectedObjectCommaOrEnd (c :: cs))

end

/-- Passes over a value and gives nothing. -/
def skip : Reader Unit := fun cs => skipValue (2 * cs.length + 2) cs

end Tabular.Json
