import Tabular.Decimal.Integer

/-!
# Flaws in JSON text

Why a text is not JSON, or not JSON of the expected shape, and where that shows. Places are counted
in bytes of UTF-8.
-/

namespace Tabular.Json

inductive Flaw where
  | endInValue
  | endInList
  | endInObject
  | endInString
  | expectedColon
  | expectedListCommaOrEnd
  | expectedObjectCommaOrEnd
  | expectedWord
  | expectedValue
  | invalidEscape
  | invalidNumber
  | numberOutOfRange
  | controlCharacter
  | keyNotString
  | loneSurrogate
  | trailingComma
  | trailingCharacters
  | unpairedSurrogate
  | tooDeep
  /-- A value of another type than the expected one. -/
  | unexpected (found expected : String)
  | duplicateField (name : String)
  deriving DecidableEq, Repr

namespace Flaw

def text : Flaw → String
  | endInValue => "EOF while parsing a value"
  | endInList => "EOF while parsing a list"
  | endInObject => "EOF while parsing an object"
  | endInString => "EOF while parsing a string"
  | expectedColon => "expected \x60:\x60"
  | expectedListCommaOrEnd => "expected \x60,\x60 or \x60]\x60"
  | expectedObjectCommaOrEnd => "expected \x60,\x60 or \x60\x7d\x60"
  | expectedWord => "expected ident"
  | expectedValue => "expected value"
  | invalidEscape => "invalid escape"
  | invalidNumber => "invalid number"
  | numberOutOfRange => "number out of range"
  | controlCharacter => "control character (\\u0000-\\u001F) found while parsing a string"
  | keyNotString => "key must be a string"
  | loneSurrogate => "lone leading surrogate in hex escape"
  | trailingComma => "trailing comma"
  | trailingCharacters => "trailing characters"
  | unpairedSurrogate => "unexpected end of hex escape"
  | tooDeep => "recursion limit exceeded"
  | unexpected found expected => "invalid type: " ++ found ++ ", expected " ++ expected
  | duplicateField name => "duplicate field \x60" ++ name ++ "\x60"

end Flaw

/-- A flaw and the number of bytes of the text that lie behind the place where it shows. -/
structure Stop where
  flaw : Flaw
  bytesLeft : Nat
  deriving DecidableEq, Repr

def byteCount (cs : List Char) : Nat :=
  cs.foldl (fun count c => count + c.utf8Size) 0

def stopAt (flaw : Flaw) (rest : List Char) : Stop :=
  ⟨flaw, byteCount rest⟩

def stopBehind (flaw : Flaw) (rest : List Char) : Stop :=
  ⟨flaw, byteCount rest - 1⟩

/-- A flaw with its line, counted from one, and the number of bytes before it on that line. -/
structure ReadError where
  flaw : Flaw
  line : Nat
  column : Nat
  deriving DecidableEq, Repr

def place (line column : Nat) : Nat → List Char → Nat × Nat
  | _, [] => (line, column)
  | offset, c :: cs =>
    if offset = 0 then (line, column)
    else if c = '\n' then place (line + 1) 0 (offset - 1) cs
    else if offset < c.utf8Size then (line, column + offset)
    else place line (column + c.utf8Size) (offset - c.utf8Size) cs

def Stop.locate (stop : Stop) (text : List Char) : ReadError :=
  let (line, column) := place 1 0 (byteCount text - stop.bytesLeft) text
  ⟨stop.flaw, line, column⟩

def ReadError.message (error : ReadError) : String :=
  error.flaw.text ++ " at line " ++ Decimal.natText error.line ++ " column " ++
    Decimal.natText error.column

end Tabular.Json
