import Tabular.Json.Token

/-!
# Reading JSON

A value is read from the front of a text. Objects and lists may be nested at most 127 deep.
-/

namespace Tabular.Json

/-- What stands in front of an element of a list: the end of the list, or the element itself.
`first` is off behind the first element, where a comma must come. -/
def readItemStart (first : Bool) : Reader Bool := fun cs =>
  match skipSpace cs with
  | [] => .error (stopAt .endInList [])
  | ']' :: cs => .ok (false, cs)
  | c :: cs =>
    if first then .ok (true, c :: cs)
    else if c = ',' then
      match skipSpace cs with
      | [] => .error (stopAt .endInValue [])
      | ']' :: cs => .error (stopBehind .trailingComma (']' :: cs))
      | cs => .ok (true, cs)
    else .error (stopBehind .expectedListCommaOrEnd (c :: cs))

/-- What stands in front of a member of an object: the end of the object, or the opening quote of
the member's name, which is taken. -/
def readMemberStart (first : Bool) : Reader Bool := fun cs =>
  match skipSpace cs with
  | [] => .error (stopAt .endInObject [])
  | '\x7d' :: cs => .ok (false, cs)
  | c :: cs =>
    if first then
      if c = '"' then .ok (true, cs) else .error (stopBehind .keyNotString (c :: cs))
    else if c = ',' then
      match skipSpace cs with
      | [] => .error (stopAt .endInValue [])
      | '"' :: cs => .ok (true, cs)
      | '\x7d' :: cs => .error (stopBehind .trailingComma ('\x7d' :: cs))
      | cs => .error (stopBehind .keyNotString cs)
    else .error (stopBehind .expectedObjectCommaOrEnd (c :: cs))

def readColon : Reader Unit := fun cs =>
  match skipSpace cs with
  | [] => .error (stopAt .endInObject [])
  | ':' :: cs => .ok ((), cs)
  | cs => .error (stopBehind .expectedColon cs)

/-- The elements of a list up to its end. The fuel bounds their number. -/
def readItems {α : Type} (element : Reader α) : Nat → Bool → Reader (List α)
  | 0, _, cs => .error (stopAt .endInList cs)
  | fuel + 1, first, cs => do
    let (more, cs) ← readItemStart first cs
    if more then
      let (item, cs) ← element cs
      let (items, cs) ← readItems element fuel false cs
      return (item :: items, cs)
    else return ([], cs)

def readMembers {α : Type} (element : Reader α) : Nat → Bool → Reader (List (String × α))
  | 0, _, cs => .error (stopAt .endInObject cs)
  | fuel + 1, first, cs => do
    let (more, cs) ← readMemberStart first cs
    if more then
      let (name, cs) ← readString cs
      let ((), cs) ← readColon cs
      let (value, cs) ← element cs
      let (members, cs) ← readMembers element fuel false cs
      return ((name, value) :: members, cs)
    else return ([], cs)

def readLeaf : Reader Json
  | [] => .error (stopAt .endInValue [])
  | c :: cs => do
    match c with
    | 'n' => let ((), cs) ← readWord "ull".toList cs; return (null, cs)
    | 't' => let ((), cs) ← readWord "rue".toList cs; return (bool true, cs)
    | 'f' => let ((), cs) ← readWord "alse".toList cs; return (bool false, cs)
    | '-' => readNumber true cs
    | '"' => let (s, cs) ← readString cs; return (string s, cs)
    | c =>
      if c.isDigit then readNumber false (c :: cs)
      else throw (stopBehind .expectedValue (c :: cs))

/-- A value with at most `depth` lists and objects inside each other. -/
def readValue : Nat → Reader Json
  | 0, cs =>
    match skipSpace cs with
    | '[' :: cs => .error (stopBehind .tooDeep ('[' :: cs))
    | '\x7b' :: cs => .error (stopBehind .tooDeep ('\x7b' :: cs))
    | cs => readLeaf cs
  | depth + 1, cs =>
    match skipSpace cs with
    | '[' :: cs => do
      let (items, cs) ← readItems (readValue depth) (cs.length + 1) true cs
      return (array items, cs)
    | '\x7b' :: cs => do
      let (members, cs) ← readMembers (readValue depth) (cs.length + 1) true cs
      return (ofMembers members, cs)
    | cs => readLeaf cs

def depthLimit : Nat := 127

/-- Something that takes a whole text up to blanks at its end. -/
def readWhole {α : Type} (reader : Reader α) (s : String) : Except ReadError α :=
  let stopped : Except Stop α := do
    let (value, rest) ← reader s.toList
    match skipSpace rest with
    | [] => return value
    | rest => throw (stopBehind .trailingCharacters rest)
  stopped.mapError (·.locate s.toList)

def read (s : String) : Except ReadError Json :=
  readWhole (readValue depthLimit) s

end Tabular.Json
