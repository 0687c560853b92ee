import Caret.Service
import Caret.Settings.Store

/-!
# The command line

Completes a script at a caret and lists the candidates. The arguments name the script and the caret;
settings may be given in a file. A run waits for the indexes, but not forever: which of them are built
when it stops waiting is given.
-/

namespace Caret.CommandLine

open Files

/-- What a run of the program leaves: its exit status and what it printed. -/
structure Outcome where
  exit : Nat
  output : Text := []
  errors : Text := []
  deriving DecidableEq

/-- The option that names a settings file. -/
def settingsOption : Text := "--settings".toList

/-- How the program is used. -/
def usage : Text := "usage: main.py [--settings settings.json] SCRIPT [CARET_OFFSET]".toList

/-- The arguments proper, and the settings file. The last file that is named counts; an option
without one takes back those before it. -/
def splitArguments : List Text → Option Text → List Text × Option Text
  | [], settings => ([], settings)
  | [argument], settings =>
    if argument = settingsOption then ([], none) else ([argument], settings)
  | argument :: next :: rest, settings =>
    if argument = settingsOption then splitArguments rest (some next)
    else
      let (arguments, settings) := splitArguments (next :: rest) settings
      (argument :: arguments, settings)

/-- The caret that an argument gives: the end of the text without one, or with one that is no
number. -/
def caretFrom (argument : Option Text) (text : Text) : Int :=
  ((argument.bind Text.toInt?).getD text.length)

/-- The text of a script. A file that cannot be read is told apart from one that is not text. -/
def readScript (disk : Disk) (path : Text) : Except Fault (Except FileError Text) :=
  match disk.readBytes path with
  | .error .invalidPath => .error .badValue
  | .error cause => .ok (.error ⟨cause, path⟩)
  | .ok data =>
    match Text.decode? data with
    | some text => .ok (.ok (Text.unifyBreaks text))
    | none => .error .undecodable

/-- The line for a candidate. -/
def candidateLine (candidate : Completion.Candidate) : Text :=
  let extra :=
    if candidate.importStatement.isEmpty then []
    else "  [".toList ++ candidate.importStatement ++ "]".toList
  candidate.display ++ '\t' :: Text.quoted candidate.replacement ++ extra ++ ['\n']

/-- Runs the program. -/
def run [CharacterNames] {ε π σ : Type} (engine : Engine ε π σ) (disk : Disk)
    (progress : Progress) (state : ε) (arguments : List Text) : Except Fault Outcome := do
  let (arguments, settingsFile) := splitArguments arguments none
  match arguments with
  | [] => return { exit := 2, errors := usage ++ ['\n'] }
  | script :: rest =>
    let (loaded, store) := (Settings.Store.new settingsFile none).load disk
    loaded
    let settings ← store.completion
    let path := Path.tidy script
    match ← readScript disk path with
    | .error error =>
      let words := "Cannot read ".toList ++ path ++ ": ".toList ++ error.message ++ ['\n']
      return { exit := 1, errors := words }
    | .ok text =>
      let (service, state) ←
        Service.start engine disk progress (.object settings.toMembers) state
      service.wait
      let view := Editor.View.ofText text (caretFrom rest.head? text)
      let (result, _) := service.complete disk view state
      return { exit := 0, output := (result.candidates.map candidateLine).flatten }

end Caret.CommandLine
