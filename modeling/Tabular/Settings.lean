import Tabular.Job.Basic
import Tabular.Json.Skip
import Tabular.Json.Printer
import Tabular.Text.Quoted

/-!
# Settings

Tokens that come before those of every command, by mode, and names for lists of tokens. Settings are
kept as a JSON object with the members `defaults` and `aliases`, each of them an object of lists of
texts. Both may be missing, and other members are passed over.
-/

namespace Tabular

abbrev NamedTokens := List (String × List String)

structure Settings where
  defaults : NamedTokens := []
  aliases : NamedTokens := []
  deriving DecidableEq, Repr

namespace Settings

def describe : Json → String
  | .null => "null"
  | .bool b => "boolean \x60" ++ (if b then "true" else "false") ++ "\x60"
  | .int n => "integer \x60" ++ Decimal.intText n ++ "\x60"
  | .float x => "floating point \x60" ++ Json.floatStyle.write x ++ "\x60"
  | .string s => "string " ++ Text.quoted s
  | .array _ => "sequence"
  | .object _ => "map"

/-- The flaw of a value that is not of the expected type. Of a list or an object nothing is read. -/
def unexpected {α : Type} (expected : String) : Json.Reader α := fun cs =>
  match cs with
  | '[' :: _ => .error (Json.stopAt (.unexpected (describe (.array [])) expected) cs)
  | '\x7b' :: _ => .error (Json.stopAt (.unexpected (describe (.object [])) expected) cs)
  | cs => do
    let (value, rest) ← Json.readLeaf cs
    throw (Json.stopAt (.unexpected (describe value) expected) rest)

def readText : Json.Reader String := fun cs =>
  match Json.skipSpace cs with
  | '"' :: cs => Json.readString cs
  | cs => unexpected "a string" cs

def readTexts : Json.Reader (List String) := fun cs =>
  match Json.skipSpace cs with
  | '[' :: cs => Json.readItems readText (cs.length + 1) true cs
  | cs => unexpected "a sequence" cs

/-- Of several lists with one name the last one stays. -/
def readNamedTokens : Json.Reader NamedTokens := fun cs =>
  match Json.skipSpace cs with
  | '\x7b' :: cs => do
    let (members, cs) ← Json.readMembers readTexts (cs.length + 1) true cs
    return (Keyed.sorted members, cs)
  | cs => unexpected "a map" cs

/-- The members of settings that have been read so far. -/
structure Draft where
  defaults : Option NamedTokens := none
  aliases : Option NamedTokens := none

def Draft.settings (draft : Draft) : Settings :=
  ⟨draft.defaults.getD [], draft.aliases.getD []⟩

/-- The value of a member of the settings, behind its name. A member may not stand twice. -/
def readMember (draft : Draft) (name : String) : Json.Reader Draft := fun cs =>
  let once (known : Option NamedTokens) (put : NamedTokens → Draft) :
      Except Json.Stop (Draft × List Char) :=
    if known.isSome then .error (Json.stopAt (.duplicateField name) cs)
    else do
      let ((), cs) ← Json.readColon cs
      let (tokens, cs) ← readNamedTokens cs
      return (put tokens, cs)
  match name with
  | "defaults" => once draft.defaults fun tokens => { draft with defaults := some tokens }
  | "aliases" => once draft.aliases fun tokens => { draft with aliases := some tokens }
  | _ => do
    let ((), cs) ← Json.readColon cs
    let ((), cs) ← Json.skip cs
    return (draft, cs)

def readObject : Nat → Bool → Draft → Json.Reader Draft
  | 0, _, _, cs => .error (Json.stopAt .endInObject cs)
  | fuel + 1, first, draft, cs => do
    let (more, cs) ← Json.readMemberStart first cs
    if more then
      let (name, cs) ← Json.readString cs
      let (draft, cs) ← readMember draft name cs
      readObject fuel false draft cs
    else return (draft, cs)

def readListEnd : Json.Reader Unit := fun cs =>
  match Json.skipSpace cs with
  | [] => .error (Json.stopAt .endInList [])
  | ']' :: cs => .ok ((), cs)
  | ',' :: cs =>
    match Json.skipSpace cs with
    | ']' :: cs => .error (Json.stopBehind .trailingComma (']' :: cs))
    | cs => .error (Json.stopBehind .trailingCharacters cs)
  | cs => .error (Json.stopBehind .trailingCharacters cs)

/-- Settings as a list of the two members without their names; the end may come early. -/
def readList : Json.Reader Settings := fun cs => do
  let (more, cs) ← Json.readItemStart true cs
  if !more then return ({}, cs)
  let (defaults, cs) ← readNamedTokens cs
  let (more, cs) ← Json.readItemStart false cs
  if !more then return ({ defaults }, cs)
  let (aliases, cs) ← readNamedTokens cs
  let ((), cs) ← readListEnd cs
  return ({ defaults, aliases }, cs)

def readSettings : Json.Reader Settings := fun cs =>
  match Json.skipSpace cs with
  | '\x7b' :: cs => do
    let (draft, cs) ← readObject (cs.length + 1) true {} cs
    return (draft.settings, cs)
  | '[' :: cs => readList cs
  | cs => unexpected "struct Settings" cs

def read (text : String) : Except Json.ReadError Settings :=
  Json.readWhole readSettings text

def tokensOf (named : NamedTokens) (name : String) : Option (List String) :=
  (named.find? (·.1 == name)).map (·.2)

/-- What a token stands for: `@name` for the tokens of that name, if there are such. These are not
looked up again. -/
def expandToken (settings : Settings) (token : String) : List String :=
  ((Text.stripLead? "@" token).bind (tokensOf settings.aliases)).getD [token]

def expand (settings : Settings) (mode : Mode) (tokens : List String) : List String :=
  ((tokensOf settings.defaults mode.name).getD [] ++ tokens).flatMap settings.expandToken

end Settings

end Tabular
