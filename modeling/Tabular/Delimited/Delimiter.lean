/-!
# Delimiters

How lines are cut into fields and how fields are joined into lines, and the names by which both are
given.
-/

namespace Tabular

/-- How a line is cut into fields. -/
inductive Splitting where
  /-- At runs of blanks. -/
  | blanks
  | csv
  /-- At a separator; an empty one cuts between all characters. -/
  | literal (separator : String)
  deriving DecidableEq, Repr

inductive Joining where
  | csv
  | literal (delimiter : String)
  deriving DecidableEq, Repr

/-- The delimiter that a name stands for; any other text stands for itself. -/
def delimiterOf (name : String) : String :=
  match name with
  | "comma" => ","
  | "space" => " "
  | "tab" => "\t"
  | "newline" => "\n"
  | "quote" => "'"
  | "dquote" => "\""
  | "none" => ""
  | "pipe" => "|"
  | other => other

def Splitting.ofDelimiter (delimiter : String) : Splitting :=
  match delimiter with
  | "space+" => blanks
  | "csv" => csv
  | other => literal other

namespace Joining

def ofDelimiter (delimiter : String) : Joining :=
  match delimiter with
  | "csv" => csv
  | other => literal other

def inner : Joining → String
  | csv => ","
  | literal delimiter => delimiter

end Joining

end Tabular
