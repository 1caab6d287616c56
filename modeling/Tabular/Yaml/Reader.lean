import Tabular.Yaml.Event
import Tabular.Yaml.Resolve
import Tabular.Keyed
import Tabular.Text.Quoted

/-!
# Reading YAML

The documents of a text as JSON values. An alias stands for the node with its anchor. Collections
may be nested at most 128 deep, and aliases may be followed at most a hundred times for every event
of the document.
-/

namespace Tabular.Yaml

inductive Path where
  | root
  | element (parent : Path) (index : Nat)
  | member (parent : Path) (key : String)
  | unknown (parent : Path)

def Path.text : Path → String
  | root => "."
  | element parent index => parent.text ++ "[" ++ Decimal.natText index ++ "]"
  | member root key => key
  | member parent key => parent.text ++ "." ++ key
  | unknown root => "?"
  | unknown parent => parent.text ++ ".?"

inductive Mismatch where
  | taggedNode
  | key (found : String) (first : Bool)
  | value (text expected : String)
  | numberRange
  deriving DecidableEq, Repr

def Mismatch.text : Mismatch → String
  | taggedNode => "invalid type: enum, expected any valid JSON value"
  | key found first =>
    "invalid type: " ++ found ++ ", expected " ++ (if first then "a string key" else "a string")
  | value text expected =>
    "invalid value: string " ++ Text.quoted text ++ ", expected " ++ expected
  | numberRange => "JSON number out of range"

inductive ReadError where
  | malformed (fault : Fault)
  | unknownAnchor (mark : Mark)
  | tooDeep (mark : Mark)
  | tooManyAliases
  | mismatch (found : Mismatch) (mark : Mark) (path : Path)
  | ended

namespace ReadError

def message : ReadError → String
  | malformed fault => fault.message
  | unknownAnchor mark => "unknown anchor" ++ mark.suffix
  | tooDeep mark => "recursion limit exceeded" ++ mark.suffix
  | tooManyAliases => "repetition limit exceeded"
  | mismatch found mark path =>
    let place :=
      match path with
      | .root => ""
      | path => path.text ++ ": "
    place ++ found.text ++ mark.suffix
  | ended => "EOF while parsing a value"

def line? : ReadError → Option Nat
  | malformed fault => some (fault.mark.line + 1)
  | unknownAnchor mark | tooDeep mark | mismatch _ mark _ => some (mark.line + 1)
  | tooManyAliases | ended => none

end ReadError

/-- An event of a document, in which an alias is the place of the node that it stands for. -/
inductive Entry where
  | scalar (tag : Option String) (text : String) (plain : Bool)
  | alias (place : Nat)
  | sequenceStart (tag : Option String)
  | sequenceEnd
  | mappingStart (tag : Option String)
  | mappingEnd
  deriving DecidableEq, Repr

/-- The entries of a document with their marks, and the error behind the last of them. -/
structure Document where
  entries : List (Entry × Mark)
  error : Option ReadError

/-- The anchors of a document by number, and the places by number. An anchor that is given again
gets the number of the anchors so far, which a later anchor may get too. -/
structure Anchors where
  numbers : List (String × Nat)
  places : List (Nat × Nat)

namespace Anchors

def none : Anchors := ⟨[], []⟩

def set (anchors : Anchors) (place : Nat) : Option String → Anchors
  | .none => anchors
  | some name =>
    let number := anchors.numbers.length
    { numbers := Keyed.update name number (fun _ => number) anchors.numbers
      places := Keyed.update number place (fun _ => place) anchors.places }

end Anchors

def readEntries : Nat → Anchors → List Event → List (Entry × Mark) × Anchors × Option ReadError ×
    Option (List Event)
  | _, anchors, [] => ([], anchors, none, none)
  | place, anchors, event :: events =>
    let go (entry : Entry) (anchors : Anchors) :=
      let (entries, rest) := readEntries (place + 1) anchors events
      ((entry, event.mark) :: entries, rest)
    match event.kind with
    | .documentEnd => ([], anchors, none, some events)
    | .alias name =>
      match anchors.numbers.find? (·.1 == name) with
      | some (_, number) => go (.alias number) anchors
      | none => ([], anchors, some (.unknownAnchor event.mark), none)
    | .scalar properties text plain =>
      go (.scalar properties.tag text plain) (anchors.set place properties.anchor)
    | .sequenceStart properties =>
      go (.sequenceStart properties.tag) (anchors.set place properties.anchor)
    | .mappingStart properties =>
      go (.mappingStart properties.tag) (anchors.set place properties.anchor)
    | .sequenceEnd => go .sequenceEnd anchors
    | .mappingEnd => go .mappingEnd anchors

def placeAliases (places : List (Nat × Nat)) (entries : List (Entry × Mark)) :
    List (Entry × Mark) :=
  entries.map fun (entry, mark) =>
    match entry with
    | .alias number => (.alias (((places.find? (·.1 == number)).map (·.2)).getD 0), mark)
    | entry => (entry, mark)

/-- The documents that the events describe, up to the first error. A text without documents is one
document without entries. The fuel bounds the number of documents. -/
def documentsOf (fault : Option Fault) : Nat → List Event → List Document
  | 0, _ => []
  | fuel + 1, events =>
    let (entries, anchors, error, rest) := readEntries 0 .none events
    let placed := placeAliases anchors.places entries
    match error, rest with
    | some error, _ => [⟨placed, some error⟩]
    | none, some rest => ⟨placed, none⟩ :: documentsOf fault fuel rest
    | none, none =>
      match fault with
      | some fault => [⟨placed, some (.malformed fault)⟩]
      | none => []

structure Context where
  entries : Array (Entry × Mark)
  error : Option ReadError

structure State where
  place : Nat
  jumps : Nat

abbrev Walk (α : Type) := State → Except ReadError (α × State)

def Context.entry (context : Context) (place : Nat) : Except ReadError (Entry × Mark) :=
  match context.entries[place]? with
  | some entry => .ok entry
  | none => .error (context.error.getD .ended)

def isOwnTag (tag : Option String) : Bool :=
  tag.any (Text.startsWith "!")

def coreTag (name : String) : String := "tag:yaml.org,2002:" ++ name

def Number.json? : Number → Option Json
  | int n => some (.int n)
  | float x => some (Json.ofFloat x)
  | outOfRange => none

def scalarValue (tag : Option String) (text : String) (plain : Bool) : Except Mismatch Json :=
  let number (n : Option Number) (expected : String) : Except Mismatch Json :=
    match n with
    | some n => n.json?.elim (.error .numberRange) .ok
    | none => .error (.value text expected)
  match tag with
  | some tag =>
    if tag = coreTag "bool" then
      (bool? text).elim (.error (.value text "a boolean")) fun b => .ok (.bool b)
    else if tag = coreTag "int" then number (int? text.toList) "an integer"
    else if tag = coreTag "float" then number ((float? text).map .float) "a float"
    else if tag = coreTag "null" then
      if isNullText text then .ok .null else .error (.value text "null")
    else .ok (.string text)
  | none =>
    if plain then
      match resolve text with
      | .null => .ok .null
      | .bool b => .ok (.bool b)
      | .number n => n.json?.elim (.error .numberRange) .ok
      | .text => .ok (.string text)
    else .ok (.string text)

/-- Follows an alias, if one stands here, to the place where its node stands. -/
def follow (context : Context) (place jumps : Nat) : Except ReadError (Nat × Nat) := do
  let (entry, _) ← context.entry place
  match entry with
  | .alias target =>
    if context.entries.size * 100 < jumps + 1 then throw .tooManyAliases
    else return (target, jumps + 1)
  | _ => return (place, jumps)

def readKey (context : Context) (first : Bool) (path : Path) : Walk String := fun state => do
  let (target, jumps) ← follow context state.place state.jumps
  let (entry, mark) ← context.entry target
  match entry with
  | .scalar _ text _ => return (text, ⟨state.place + 1, jumps⟩)
  | .sequenceStart _ => throw (.mismatch (.key "sequence" first) mark path)
  | _ => throw (.mismatch (.key "map" first) mark path)

def readElements (context : Context) (path : Path) (element : Path → Walk Json) :
    Nat → Nat → Walk (List Json)
  | 0, _, _ => .error .ended
  | fuel + 1, index, state => do
    let (entry, _) ← context.entry state.place
    if entry = .sequenceEnd then return ([], { state with place := state.place + 1 })
    else
      let (value, state) ← element (.element path index) state
      let (more, state) ← readElements context path element fuel (index + 1) state
      return (value :: more, state)

def readPairs (context : Context) (path : Path) (element : Path → Walk Json) :
    Nat → Bool → Walk (List (String × Json))
  | 0, _, _ => .error .ended
  | fuel + 1, first, state => do
    let (entry, _) ← context.entry state.place
    if entry = .mappingEnd then return ([], { state with place := state.place + 1 })
    else
      let (key, state) ← readKey context first path state
      let inner : Path :=
        match entry with
        | .scalar _ text _ => .member path text
        | _ => .unknown path
      let (value, state) ← element inner state
      let (more, state) ← readPairs context path element fuel false state
      return ((key, value) :: more, state)

def readNode (context : Context) : Nat → Path → Walk Json
  | depth, path, state => do
    let (target, jumps) ← follow context state.place state.jumps
    let (entry, mark) ← context.entry target
    let inside : State := ⟨target + 1, jumps⟩
    let mismatch (found : Mismatch) : ReadError := .mismatch found mark path
    let (value, stop) ←
      match entry, depth with
      | .scalar tag text plain, _ =>
        if isOwnTag tag then throw (mismatch .taggedNode)
        else
          let value ← (scalarValue tag text plain).mapError mismatch
          pure (value, inside)
      | .sequenceStart tag, 0 =>
        throw (if isOwnTag tag then mismatch .taggedNode else .tooDeep mark)
      | .mappingStart tag, 0 =>
        throw (if isOwnTag tag then mismatch .taggedNode else .tooDeep mark)
      | .sequenceStart tag, depth + 1 =>
        if isOwnTag tag then throw (mismatch .taggedNode)
        else
          let (items, stop) ←
            readElements context path (readNode context depth) (context.entries.size + 1) 0 inside
          pure (Json.array items, stop)
      | .mappingStart tag, depth + 1 =>
        if isOwnTag tag then throw (mismatch .taggedNode)
        else
          let (members, stop) ←
            readPairs context path (readNode context depth) (context.entries.size + 1) true inside
          pure (Json.ofMembers members, stop)
      | _, _ => throw .ended
    return (value, if target = state.place then stop else ⟨state.place + 1, stop.jumps⟩)

def depthLimit : Nat := 128

/-- The value of a document. An error behind the value counts too. -/
def Document.value (document : Document) : Except ReadError Json := do
  let context : Context := ⟨document.entries.toArray, document.error⟩
  let (value, _) ← readNode context depthLimit .root ⟨0, 0⟩
  match document.error with
  | some error => throw error
  | none => return value

/-- The values of the documents of a text in order, each with an error in its place; nothing comes
behind an error of the text. A text without documents holds `null`. -/
def read (text : String) : List (Except ReadError Json) :=
  let (events, fault) := events text.toList
  match documentsOf fault (events.length + 1) events with
  | [] => [.ok .null]
  | documents => documents.map Document.value

end Tabular.Yaml
