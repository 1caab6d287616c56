import Tabular.Job.Reader
import Tabular.Job.Run
import Tabular.Settings

/-!
# The command line

The arguments name a mode and give its tokens. A settings file may be named before the mode, or
between the mode and the first token. From the first token on every argument is a token, also one
that begins with a hyphen; two hyphens in front of the tokens are dropped.
-/

namespace Tabular

structure CommandLine where
  /-- The path of the settings file that the arguments name. -/
  settings : Option String
  mode : Mode
  tokens : List String
  deriving DecidableEq, Repr

namespace CommandLine

/-- What the arguments say about a settings file at their front. -/
inductive SettingsOption where
  | absent
  | malformed
  | path (path : String) (rest : List String)
  deriving DecidableEq, Repr

def isSettingsOption (arg : String) : Bool :=
  arg = "--settings" || Text.startsWith "--settings=" arg

/-- Whether an argument can be a path. Before the mode a path has no hyphen in front, and behind it
a path is no option of its own. -/
def isPath (behindMode : Bool) (arg : String) : Bool :=
  if behindMode then arg != "--" && !isSettingsOption arg
  else arg = "-" || !Text.startsWith "-" arg

/-- The path behind `--settings`, in the same argument or in the next one. -/
def settingsOption (behindMode : Bool) : List String → SettingsOption
  | [] => .absent
  | arg :: args =>
    if arg = "--settings" then
      match args with
      | [] => .malformed
      | path :: rest => if isPath behindMode path then .path path rest else .malformed
    else
      match Text.stripLead? "--settings=" arg with
      | some path => .path path args
      | none => .absent

def readTokens (mode : Mode) (settings : Option String) (args : List String) :
    Option CommandLine :=
  let tokens (args : List String) : List String :=
    match args with
    | "--" :: rest => rest
    | args => args
  match settingsOption true args with
  | .malformed => none
  | .absent => some ⟨settings, mode, tokens args⟩
  | .path path rest =>
    match settingsOption true rest with
    | .absent => some ⟨some path, mode, tokens rest⟩
    | _ => none

def readMode (settings : Option String) : List String → Option CommandLine
  | [] => none
  | name :: args => (Mode.ofName? name).bind fun mode => readTokens mode settings args

/-- The command that the arguments give, if they have the right form. A path behind the mode is
preferred to one before it. -/
def read (args : List String) : Option CommandLine :=
  match settingsOption false args with
  | .malformed => none
  | .absent => readMode none args
  | .path path rest => readMode (some path) rest

end CommandLine

inductive SettingsFile where
  | missing
  | unreadable (reason : String)
  | text (content : String)
  deriving DecidableEq, Repr

namespace SettingsFile

/-- A missing file stands for no settings. -/
def settings (path : String) : SettingsFile → Except String Settings
  | missing => .ok {}
  | unreadable reason => .error ("failed to read settings " ++ path ++ ": " ++ reason)
  | text content =>
    (Settings.read content).mapError fun error =>
      "invalid settings file " ++ path ++ ": " ++ error.message

end SettingsFile

structure Report where
  code : UInt32
  output : String
  error : String

namespace Report

def misuse : Report :=
  ⟨2, "", "usage: [--settings PATH] csv|jp|jpl|yp [TOKEN]...\n"⟩

def failure (output message : String) : Report :=
  ⟨1, output, "error: " ++ message ++ "\n"⟩

def ofOutcome (outcome : Outcome) : Report :=
  match outcome.failure with
  | some cause => failure outcome.written (Fault.ofCause cause).message
  | none => ⟨0, outcome.written, ""⟩

end Report

namespace CommandLine

/-- The settings for a command: those at the path that it names, or else at the usual path. -/
def loadSettings (usualPath : Option String) (file : String → SettingsFile)
    (command : CommandLine) : Except String Settings :=
  match command.settings.or usualPath with
  | some path => (file path).settings path
  | none => .ok {}

def run (usualPath : Option String) (file : String → SettingsFile) (command : CommandLine)
    (input : Text.Input) : Report :=
  match command.loadSettings usualPath file with
  | .error message => .failure "" message
  | .ok settings =>
    match Job.ofTokens command.mode (settings.expand command.mode command.tokens) with
    | .error fault => .failure "" ("invalid arguments: " ++ fault.message)
    | .ok job => .ofOutcome (job.run input)

def runArguments (usualPath : Option String) (file : String → SettingsFile) (args : List String)
    (input : Text.Input) : Report :=
  match read args with
  | none => .misuse
  | some command => command.run usualPath file input

end CommandLine

end Tabular
