/-!
# Writing CSV

Fields stand between commas and records end with line feeds. A field is quoted when it holds a
comma, a quote or a line end; inside quotes a quote is written twice.
-/

namespace Tabular.Csv

def needsQuotes (c : Char) : Bool :=
  c == ',' || c == '"' || c == '\r' || c == '\n'

def doubleQuotes (cs : List Char) : List Char :=
  cs.flatMap fun c => if c = '"' then ['"', '"'] else [c]

def writeField (field : List Char) : List Char :=
  if field.any needsQuotes then '"' :: doubleQuotes field ++ ['"'] else field

def writeFields : List (List Char) → List Char
  | [] => []
  | [field] => writeField field
  | field :: fields => writeField field ++ ',' :: writeFields fields

/-- A record with its line end. A line of no characters would be no record, so a record that has
none is written as a pair of quotes. -/
def writeRecord (fields : List (List Char)) : List Char :=
  let line := writeFields fields
  (if line.isEmpty then ['"', '"'] else line) ++ ['\n']

end Tabular.Csv
