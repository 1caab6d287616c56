import Tabular.Csv.Reader
import Tabular.Delimited.Delimiter
import Tabular.Fault

/-!
# Records

The records of an input. CSV is read as a whole, since fields may hold line ends; otherwise every
line is a record.
-/

namespace Tabular.Delimited

def splitLine (splitting : Splitting) (line : String) : List String :=
  match splitting with
  | .blanks => Text.words line
  | .csv => Csv.firstRecord line
  | .literal separator => Text.splitAt separator line

/-- The records of an input up to the first line that is not valid text, and what is wrong with that
line. CSV records that are not valid text are passed over. -/
def records (splitting : Splitting) (input : Text.Input) : List (List String) × Option Cause :=
  match splitting with
  | .csv => (Csv.records input, none)
  | splitting =>
    let (lines, broken) := Text.validLines input.lines
    (lines.map (splitLine splitting), if broken then some .invalidText else none)

end Tabular.Delimited
