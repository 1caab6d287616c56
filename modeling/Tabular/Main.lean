import Tabular.CommandLine

/-!
# The program

Reads the arguments, the settings file and standard input, and writes what the command line reports.
-/

namespace Tabular

/-- The variable of the environment that names the usual settings file. -/
def settingsVariable : String := "TABX_SETTINGS"

def readSettingsFile (path : String) : IO SettingsFile := do
  try
    let bytes ← IO.FS.readBinFile path
    match Text.text? (Text.Input.ofBytes bytes.toList) with
    | some content => return .text content
    | none => return .unreadable "stream did not contain valid UTF-8"
  catch error =>
    match error with
    | .noFileOrDirectory .. => return .missing
    | error => return .unreadable (toString error)

partial def readBytes (stream : IO.FS.Stream) (soFar : ByteArray) : IO ByteArray := do
  let bytes ← stream.read 65536
  if bytes.isEmpty then return soFar else readBytes stream (soFar ++ bytes)

/-- A terminal holds no input. -/
def readInput : IO Text.Input := do
  let stream ← IO.getStdin
  if ← stream.isTty then return []
  let bytes ← readBytes stream ByteArray.empty
  return Text.Input.ofBytes bytes.toList

end Tabular

def main (args : List String) : IO UInt32 := do
  let usualPath ← IO.getEnv Tabular.settingsVariable
  let command := Tabular.CommandLine.read args
  let path := (command.bind (·.settings)).or usualPath
  let file ← path.elim (pure .missing) Tabular.readSettingsFile
  let input ← if command.isSome then Tabular.readInput else pure []
  let report := Tabular.CommandLine.runArguments usualPath (fun _ => file) args input
  (← IO.getStdout).putStr report.output
  (← IO.getStderr).putStr report.error
  return report.code
