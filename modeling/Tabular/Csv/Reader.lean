import Tabular.Text.Input

/-!
# Reading CSV

Records end at a line feed or at a carriage return, and lines without characters are passed over. A
field that begins with a quote goes on to the next quote that stands alone; what follows that quote
belongs to the field too. At the end of the text an open field ends.
-/

namespace Tabular.Csv

open Text

inductive Position where
  | recordStart
  | fieldStart
  | bare
  | quoted
  /-- Behind a quote in a quoted field. -/
  | behindQuote
  deriving DecidableEq, Repr

/-- What has been read of a record: its ended fields, and the current one, each in reverse. -/
structure State where
  position : Position
  field : List Mark
  fields : List (List Mark)
  deriving DecidableEq, Repr

namespace State

def start : State := ⟨.recordStart, [], []⟩

/-- The fields, the current one included. -/
def record (state : State) : List (List Mark) :=
  (state.field.reverse :: state.fields).reverse

def add (state : State) (position : Position) (mark : Mark) : State :=
  ⟨position, mark :: state.field, state.fields⟩

def endField (state : State) : State :=
  ⟨.fieldStart, [], state.field.reverse :: state.fields⟩

/-- The state behind a mark, and the record if the mark ends one. -/
def step (state : State) (mark : Mark) : State × Option (List (List Mark)) :=
  let isQuote : Bool := mark == .char '"'
  let isLineEnd : Bool := mark == .char '\n' || mark == .char '\r'
  let outside : State × Option (List (List Mark)) :=
    if mark == .char ',' then (state.endField, none)
    else if isLineEnd then (start, some state.record)
    else (state.add .bare mark, none)
  match state.position with
  | .recordStart =>
    if isLineEnd then (state, none)
    else if isQuote then ({ state with position := .quoted }, none)
    else outside
  | .fieldStart => if isQuote then ({ state with position := .quoted }, none) else outside
  | .bare => outside
  | .quoted =>
    if isQuote then ({ state with position := .behindQuote }, none)
    else (state.add .quoted mark, none)
  | .behindQuote => if isQuote then (state.add .quoted mark, none) else outside

end State

def recordsFrom : State → List Mark → List (List (List Mark))
  | state, [] => if state.position = .recordStart then [] else [state.record]
  | state, mark :: marks =>
    match state.step mark with
    | (next, some record) => record :: recordsFrom next marks
    | (next, none) => recordsFrom next marks

def markBytes : Mark → List UInt8
  | .char c => String.utf8EncodeChar c
  | .stray byte => [byte]

/-- The text of a field. Bytes that quotes held apart may form characters. -/
def fieldText? (field : List Mark) : Option String :=
  match text? field with
  | some s => some s
  | none => text? (Input.ofBytes (field.flatMap markBytes))

def recordTexts? (record : List (List Mark)) : Option (List String) :=
  record.mapM fieldText?

def dropByteOrderMark : Input → Input
  | .char '\ufeff' :: marks => marks
  | marks => marks

def records (input : Input) : List (List String) :=
  (recordsFrom .start (dropByteOrderMark input)).filterMap recordTexts?

/-- The fields of the first record of a text; none if that is not valid. -/
def firstRecord (s : String) : List String :=
  (((recordsFrom .start (dropByteOrderMark (Input.ofText s))).head?).bind recordTexts?).getD []

end Tabular.Csv
