import Tabular.Expr.Basic
import Tabular.Decimal.Numeral

/-!
# Reading expressions

From the loosest to the tightest: the conditional `c ? a : b`; then `||`, `&&`, comparisons, sums
and products, each grouped to the left; powers, grouped to the right; signs and negations; and
numbers, quoted texts, names and parentheses. Blanks may stand between all of these.

A reader that stops says where, whether it had already committed itself to what it was reading, and
what it expected there. Only an uncommitted stop lets a sign be read as something else.
-/

namespace Tabular.Expr

inductive Expected where
  | value
  | operand
  | closing
  | colon
  deriving DecidableEq, Repr

structure Stop where
  committed : Bool
  rest : List Char
  expected : Option Expected
  deriving DecidableEq, Repr

abbrev Reader (α : Type) := List Char → Except Stop (α × List Char)

def isSpace (c : Char) : Bool :=
  c == ' ' || c == '\t' || c == '\r' || c == '\n'

def skipSpace (cs : List Char) : List Char :=
  cs.dropWhile isSpace

def commit {α : Type} (result : Except Stop α) : Except Stop α :=
  result.mapError fun stop => { stop with committed := true }

/-- Says what was expected, unless something inside has said so. -/
def expecting {α : Type} (expected : Expected) (result : Except Stop α) : Except Stop α :=
  result.mapError fun stop => { stop with expected := stop.expected.or (some expected) }

def readNumber (cs : List Char) : Expr × List Char :=
  let whole := cs.takeWhile Char.isDigit
  let rest := cs.dropWhile Char.isDigit
  let plain := (number (Decimal.nearest (Nat.ofDigitChars 10 whole 0) 0), rest)
  match rest with
  | '.' :: more =>
    let fraction := more.takeWhile Char.isDigit
    if fraction = [] then plain
    else
      (number (Decimal.nearest (Nat.ofDigitChars 10 (whole ++ fraction) 0) (-fraction.length)),
        more.dropWhile Char.isDigit)
  | _ => plain

def readQuoted (quote : Char) : Reader Expr := fun cs =>
  match cs.dropWhile (· != quote) with
  | _ :: rest => .ok (text (String.ofList (cs.takeWhile (· != quote))), rest)
  | [] => .error ⟨true, [], some .value⟩

def isNameStart (c : Char) : Bool :=
  c.isAlpha || c == '_'

def isNameChar (c : Char) : Bool :=
  c.isAlphanum || c == '_'

/-- The words `true` and `false` are truth values, every other name is a variable. -/
def ofName (name : String) : Expr :=
  if name = "true" then bool true
  else if name = "false" then bool false
  else var name

def readName (cs : List Char) : Expr × List Char :=
  (ofName (String.ofList (cs.takeWhile isNameChar)), cs.dropWhile isNameChar)

def readPrimary (inner : Reader Expr) : Reader Expr
  | [] => .error ⟨false, [], some .value⟩
  | c :: cs =>
    if c.isDigit then .ok (readNumber (c :: cs))
    else if c = '\'' ∨ c = '"' then readQuoted c cs
    else if isNameStart c then .ok (readName (c :: cs))
    else if c = '(' then do
      let (e, rest) ← expecting .value (inner (skipSpace cs))
      match skipSpace rest with
      | ')' :: rest => return (e, rest)
      | rest => throw ⟨true, rest, some .closing⟩
    else .error ⟨false, c :: cs, some .value⟩

def unaryOp? (c : Char) : Option UnaryOp :=
  if c = '-' then some .negate else if c = '!' then some .not else none

/-- Signs and negations in front of a primary. The fuel bounds their number. -/
def readUnary (primary : Reader Expr) : Nat → Reader Expr
  | 0, cs => primary cs
  | _ + 1, [] => primary []
  | fuel + 1, c :: cs =>
    match unaryOp? c with
    | none => primary (c :: cs)
    | some op =>
      match readUnary primary fuel (skipSpace cs) with
      | .ok (e, rest) => .ok (unary op e, rest)
      | .error stop => if stop.committed then .error stop else primary (c :: cs)

/-- A base with an optional exponent. The fuel bounds the number of exponents. -/
def readPower (operand : Reader Expr) : Nat → Reader Expr
  | 0, cs => operand cs
  | fuel + 1, cs => do
    let (base, rest) ← operand cs
    match skipSpace rest with
    | '*' :: '*' :: more =>
      let (exponent, rest) ← commit (readPower operand fuel (skipSpace more))
      return (binary .pow base exponent, rest)
    | _ => return (base, rest)

inductive Level where
  | or
  | and
  | comparison
  | additive
  | multiplicative
  deriving DecidableEq, Repr

def Level.operator? : Level → List Char → Option (BinaryOp × List Char)
  | .or, '|' :: '|' :: cs => some (.or, cs)
  | .and, '&' :: '&' :: cs => some (.and, cs)
  | .comparison, '=' :: '=' :: cs => some (.eq, cs)
  | .comparison, '!' :: '=' :: cs => some (.ne, cs)
  | .comparison, '<' :: '=' :: cs => some (.le, cs)
  | .comparison, '>' :: '=' :: cs => some (.ge, cs)
  | .comparison, '=' :: '~' :: cs => some (.like, cs)
  | .comparison, '!' :: '~' :: cs => some (.unlike, cs)
  | .comparison, '<' :: cs => some (.lt, cs)
  | .comparison, '>' :: cs => some (.gt, cs)
  | .additive, '+' :: cs => some (.add, cs)
  | .additive, '-' :: cs => some (.sub, cs)
  | .multiplicative, '*' :: '*' :: _ => none
  | .multiplicative, '*' :: cs => some (.mul, cs)
  | .multiplicative, '/' :: cs => some (.div, cs)
  | .multiplicative, '%' :: cs => some (.rem, cs)
  | _, _ => none

/-- Takes operators of a level and their right operands. The fuel bounds their number. -/
def readChain (operand : Reader Expr) (level : Level) : Nat → Expr → Reader Expr
  | 0, left, cs => .ok (left, cs)
  | fuel + 1, left, cs =>
    match level.operator? (skipSpace cs) with
    | none => .ok (left, cs)
    | some (op, rest) => do
      let (right, rest) ← expecting .operand (commit (operand (skipSpace rest)))
      readChain operand level fuel (binary op left right) rest

def readLevel (level : Level) (operand : Reader Expr) : Reader Expr := fun cs => do
  let (left, rest) ← operand cs
  readChain operand level rest.length left rest

/-- Everything but the conditional, around an inner expression for parentheses. -/
def readOperation (inner : Reader Expr) : Reader Expr :=
  let unary : Reader Expr := fun cs => readUnary (readPrimary inner) cs.length cs
  let power : Reader Expr := fun cs => readPower unary cs.length cs
  readLevel .or (readLevel .and (readLevel .comparison (readLevel .additive
    (readLevel .multiplicative power))))

/-- A whole expression. The fuel bounds how deep expressions stand inside each other. -/
def readExpr : Nat → Reader Expr
  | 0, cs => .error ⟨false, cs, some .value⟩
  | fuel + 1, cs => do
    let (condition, rest) ← readOperation (readExpr fuel) cs
    match skipSpace rest with
    | '?' :: more =>
      let (yes, rest) ← commit (readExpr fuel (skipSpace more))
      match skipSpace rest with
      | ':' :: more =>
        let (no, rest) ← commit (readExpr fuel (skipSpace more))
        return (conditional condition yes no, rest)
      | rest => throw ⟨true, rest, some .colon⟩
    | _ => return (condition, rest)

/-- Why a text is no expression: the number of bytes before the place where reading stopped, and
what was expected there. -/
structure ReadError where
  source : String
  offset : Nat
  expected : Option Expected
  deriving DecidableEq, Repr

def Expected.text : Expected → String
  | value => "expected value"
  | operand => "expected operand"
  | closing => "expected ')'"
  | colon => "expected ':'"

def ReadError.message (error : ReadError) : String :=
  let reason := (error.expected.map Expected.text).getD "unexpected character"
  "invalid expression: " ++ reason ++ "\n  " ++ error.source ++ "\n  " ++
    String.ofList (List.replicate error.offset ' ') ++ "^"

def readChars (cs : List Char) : Except Stop Expr := do
  let (e, rest) ← readExpr (cs.length + 1) (skipSpace cs)
  match skipSpace rest with
  | [] => return e
  | rest => throw ⟨false, rest, none⟩

def read (source : String) : Except ReadError Expr :=
  (readChars source.toList).mapError fun stop =>
    ⟨source, source.utf8ByteSize - (String.ofList stop.rest).utf8ByteSize, stop.expected⟩

end Tabular.Expr
