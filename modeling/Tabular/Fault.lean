import Tabular.Expr.Reader
import Tabular.Json.Error
import Tabular.Yaml.Reader

/-!
# Faults

Why a job cannot be read or carried out, and where that shows: at a token of the command, at a line
of the input, or nowhere in particular.
-/

namespace Tabular

inductive Cause where
  | noData
  /-- A line or a text of the input is not valid UTF-8. -/
  | invalidText
  | json (error : Json.ReadError)
  | yaml (error : Yaml.ReadError)
  | documentRoot
  | noKeys
  | expression (error : Expr.ReadError)
  | columnPlaceholder (text : String)
  | malformedToken (token : String) (offset : Nat)
  | editForm
  | editColumn (text : String)
  | formulaForm
  | conditionForm
  | outputForm
  | outputLevels (text : String)
  | levelsBeyondKeys (levels keyCount : Nat)
  | fieldsBelowWidth (width : Nat)

namespace Cause

def text : Cause → String
  | noData => "there is no data to read from STDIN"
  | invalidText => "i/o error: stream did not contain valid UTF-8"
  | json error => "invalid JSON: " ++ error.message
  | yaml error => "invalid YAML: " ++ error.message
  | documentRoot => "document root must be an object or an array of objects"
  | noKeys => "no keys given: use keys to list key paths, keys[a.b,...] to extract"
  | expression error => error.message
  | columnPlaceholder text => "invalid column placeholder " ++ text ++ " in calc"
  | malformedToken token offset =>
    "malformed token '" ++ token ++ "' at offset " ++ Decimal.natText offset
  | editForm => "expected tr<sep>cN<sep>OPTIONS"
  | editColumn text => "invalid column '" ++ text ++ "' in tr"
  | formulaForm => "expected calc(EXPRESSION)"
  | conditionForm => "expected filter..EXPRESSION"
  | outputForm => "expected out..TYPE"
  | outputLevels text => "invalid levels '" ++ text ++ "'"
  | levelsBeyondKeys levels keyCount =>
    "invalid levels value " ++ Decimal.natText levels ++ ": at most " ++
      Decimal.natText keyCount ++ " allowed"
  | fieldsBelowWidth width => "invalid JSON fields: expected at least " ++ Decimal.natText width

/-- The line of the input that the cause itself knows of, counted from one. -/
def line? : Cause → Option Nat
  | json error => some error.line
  | yaml error => error.line?
  | _ => none

end Cause

/-- A cause, with the place of the token that is at fault when one is. -/
structure Fault where
  cause : Cause
  token : Option Nat

namespace Fault

def ofCause (cause : Cause) : Fault :=
  ⟨cause, none⟩

def atToken (index : Nat) (cause : Cause) : Fault :=
  ⟨cause, some index⟩

def line? (fault : Fault) : Option Nat :=
  fault.cause.line?

def message (fault : Fault) : String :=
  let place : String :=
    match fault.token, fault.line? with
    | some token, some line =>
      " (at token " ++ Decimal.natText token ++ ", input line " ++ Decimal.natText line ++ ")"
    | some token, none => " (at token " ++ Decimal.natText token ++ ")"
    | none, some line => " (at input line " ++ Decimal.natText line ++ ")"
    | none, none => ""
  fault.cause.text ++ place

end Fault

end Tabular
