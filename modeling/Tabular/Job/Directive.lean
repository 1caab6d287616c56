import Tabular.Job.Basic
import Tabular.Range.Reader

/-!
# Directives

A token of a command holds one directive. Tokens have the form `name:text`, `name[body]:option`,
`name(expression)`, or `name` with parts behind it that some character separates. A token of no
known form holds nothing.
-/

namespace Tabular

inductive Directive where
  | joinLines (joiner : String)
  | join (joining : Joining)
  | split (splitting : Splitting)
  | wrap (around : String)
  | rows (range : Range)
  | columns (range : Range)
  | edit (column : Nat) (edit : Edit)
  | group (grouping : Grouping)
  | sort (sorting : Sorting)
  | output (form : OutputForm) (levels : Option Nat)
  | labels (labels : List String)
  | formula (formula : Formula)
  | keys (keys : List String)
  | condition (condition : Condition)
  | headless
  | hideLabels
  | nothing
  deriving DecidableEq, Repr

namespace Directive

structure Bracketed where
  body : String
  options : List String
  deriving DecidableEq, Repr

/-- Letters, a body in brackets, and options behind colons. What stands behind the body without a
colon is dropped. The offset of a failure is counted in bytes. -/
def readBracketed (token : String) : Except Cause Bracketed :=
  let cs := token.toList
  let fail (rest : List Char) : Except Cause Bracketed :=
    .error (.malformedToken token (token.utf8ByteSize - (String.ofList rest).utf8ByteSize))
  match cs.dropWhile Char.isAlpha with
  | '[' :: inner =>
    match inner.dropWhile (· != ']') with
    | [] => fail []
    | _ :: behind =>
      let options :=
        match behind with
        | ':' :: options => Text.splitAtChar ':' (String.ofList options)
        | _ => []
      .ok ⟨String.ofList (inner.takeWhile (· != ']')), options⟩
  | rest => fail rest

def readRange (token : String) : Except Cause (Range × List String) := do
  let bracketed ← readBracketed token
  return (Range.read bracketed.body, bracketed.options.map Text.trim)

def readNames (token : String) : Except Cause (List String) := do
  let bracketed ← readBracketed token
  if Text.isBlankText bracketed.body then return []
  else return (Text.splitAtChar ',' bracketed.body).map Text.trim

/-- The parts of what follows the name of a token. They are separated by the character behind the
name together with its repetitions there. -/
def parts? (rest : String) : Option (List String) :=
  match rest.toList with
  | [] => none
  | c :: cs =>
    let separator := c :: cs.takeWhile (· == c)
    some (Text.splitAt (String.ofList separator) (String.ofList (cs.dropWhile (· == c))))

/-- The text without a pair of quotes of one kind around it. -/
def unquote (text : String) : String :=
  let inside (quote : String) : Option String :=
    (Text.stripLead? quote text).bind (Text.stripTail? quote)
  ((inside "'").or (inside "\"")).getD text

def readColumn? (text : String) : Option Nat :=
  match text.toList with
  | 'c' :: digits => (Decimal.readNat? digits).filter (· < Decimal.indexBound)
  | _ => none

def addOption (edit : Edit) (option : String) : Except Cause Edit :=
  let value? (name : String) : Option String := Text.stripLead? name option
  if let some text := value? "split:" then .ok { edit with separator := delimiterOf text }
  else if let some text := value? "merge:" then .ok { edit with joiner := some (delimiterOf text) }
  else if let some text := value? "wrap:" then .ok { edit with wrap := some (delimiterOf text) }
  else if let some text := value? "pfx:" then .ok { edit with lead := some (unquote text) }
  else if let some text := value? "sfx:" then .ok { edit with tail := some (unquote text) }
  else if Text.startsWith "col[" option then do
    let (range, _) ← readRange option
    return { edit with pieces := some range }
  else if Text.startsWith "ncol[" option then do
    let (range, _) ← readRange option
    return { edit with pieces := some range.complement }
  else if option = "add" then .ok { edit with adds := true }
  else .ok edit

def readEdit (rest : String) : Except Cause Directive :=
  match parts? rest with
  | none | some [] => .error .editForm
  | some (column :: options) =>
    match readColumn? column with
    | none => .error (.editColumn column)
    | some column => do return edit column (← options.foldlM addOption {})

def formNamed (name : String) : OutputForm :=
  match name with
  | "table" => .table
  | "json" => .json
  | _ => .lines

/-- The last number of levels among the options. -/
def readLevels (levels : Option Nat) : List String → Except Cause (Option Nat)
  | [] => .ok levels
  | option :: options =>
    match Text.stripLead? "levels:" option with
    | none => readLevels levels options
    | some text =>
      match Decimal.readIndex? text.toList with
      | some levels => readLevels (some levels) options
      | none => .error (.outputLevels text)

def readOutput (rest : String) : Except Cause Directive :=
  match parts? rest with
  | none | some [] => .error .outputForm
  | some (name :: options) => do return output (formNamed name) (← readLevels none options)

def readCondition (rest : String) : Except Cause Directive :=
  match parts? rest with
  | none => .error .conditionForm
  | some parts => do return condition (← Condition.read (" ".intercalate parts))

def parenthesised? (token : String) : Option String :=
  match token.toList.dropWhile (· != '(') with
  | [] => none
  | _ :: inner =>
    match inner.reverse.dropWhile (· != ')') with
    | [] => none
    | _ :: body => some (String.ofList body.reverse)

def readFormula (token : String) : Except Cause Directive :=
  match parenthesised? token with
  | none => .error .formulaForm
  | some source => do return formula (← Formula.read source)

/-- A directive about a range, with the options behind it. -/
def ofRange (token : String) (make : Range → List String → Directive) : Except Cause Directive := do
  let (range, options) ← readRange token
  return make range options

def readTrimmed (token : String) : Except Cause Directive :=
  let rest? (name : String) : Option String := Text.stripLead? name token
  let begins (name : String) : Bool := Text.startsWith name token
  if let some rest := rest? "lmerge" then
    .ok (joinLines ((Text.stripLead? ":" rest).elim "," delimiterOf))
  else if let some text := rest? "merge:" then .ok (join (.ofDelimiter (delimiterOf text)))
  else if begins "row[" then ofRange token fun range _ => rows range
  else if begins "col[" then ofRange token fun range _ => columns range
  else if begins "ncol[" then ofRange token fun range _ => columns range.complement
  else if begins "sort[" then
    ofRange token fun range options => sort { keys := range, descends := options.contains "desc" }
  else if let some text := rest? "split:" then .ok (split (.ofDelimiter (delimiterOf text)))
  else if let some text := rest? "wrap:" then .ok (wrap (delimiterOf text))
  else if let some rest := rest? "tr" then readEdit rest
  else if begins "group[" then
    ofRange token fun range options => group
      { keys := range
        counts := options.contains "count"
        folds := options.contains "row" }
  else if let some rest := rest? "out" then readOutput rest
  else if begins "head" then do return labels (← readNames token)
  else if token = "-inhead" then .ok headless
  else if token = "-outhead" then .ok hideLabels
  else if begins "calc" then readFormula token
  else if token = "keys" then .ok (keys [])
  else if begins "keys" then do return keys (← readNames token)
  else if let some rest := rest? "filter" then readCondition rest
  else .ok nothing

/-- The directive of a token. Blanks around the token do not count. -/
def read (token : String) : Except Cause Directive :=
  readTrimmed (Text.trim token)

end Directive

end Tabular
