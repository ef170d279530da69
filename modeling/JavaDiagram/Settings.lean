import JavaDiagram.Diagram.Walk
import JavaDiagram.Files.FileSystem
import JavaDiagram.Text.Utf8
import JavaDiagram.Toml.Reading

/-!
# Settings

A settings file is a TOML document with the filter of the log and the options of walks. Everything
in it may be left out, but nothing else may stand in it.
-/

namespace JavaDiagram

/-- What a settings file says. -/
structure Settings where
  logLevel : Option String := none
  sequence : WalkOptions := {}
  deriving DecidableEq, Repr

namespace WalkOptions

/-- The number that a value gives for an option. -/
def limitOf : Toml.Value → Option Nat
  | .integer n => if 0 ≤ n then some n.toNat else none
  | _ => none

/-- Options with one more entry. -/
def withEntry (options : WalkOptions) : Toml.Entry → Option WalkOptions
  | (["max_depth"], v) => do return { options with maxDepth := ← limitOf v }
  | (["max_entries"], v) => do return { options with maxEntries := ← limitOf v }
  | _ => none

def ofEntries (entries : List Toml.Entry) : Option WalkOptions :=
  entries.foldlM withEntry {}

/-- The options that one value gives: a table of entries, or the depth and the number of entry
methods in this order, whatever follows them. -/
def ofValue : Toml.Value → Option WalkOptions
  | .table entries => ofEntries entries
  | .array [] => some {}
  | .array [depth] => do return { maxDepth := ← limitOf depth }
  | .array (depth :: entries :: _) => do return ⟨← limitOf depth, ← limitOf entries⟩
  | _ => none

end WalkOptions

namespace Settings

def logLevelKey : String := "log_level"

/-- The key of the options of walks. -/
def sequenceKey : String := "sequence"

/-- Settings with one more entry. -/
def withEntry (settings : Settings) : Toml.Entry → Option Settings
  | ([key], v) =>
    match v with
    | .text s =>
      if key = logLevelKey then some { settings with logLevel := some s } else none
    | v =>
      if key = sequenceKey then do return { settings with sequence := ← WalkOptions.ofValue v }
      else none
  | (key :: path, v) =>
    if key = sequenceKey then do
      return { settings with sequence := ← settings.sequence.withEntry (path, v) }
    else none
  | _ => none

/-- The settings of a document. The options of walks have one section, unless they are given
outside all sections. -/
def ofDocument (document : Toml.Document) : Option Settings := do
  let settings ← document.entries.foldlM withEntry {}
  match document.sections with
  | [] => return settings
  | [⟨path, false, entries⟩] =>
    let isGiven := document.entries.any fun (path, _) => path.head? == some sequenceKey
    if path = [sequenceKey] ∧ !isGiven then
      return { settings with sequence := ← WalkOptions.ofEntries entries }
    else none
  | _ => none

def ofText (s : String) : Option Settings := do
  ofDocument (← Toml.Document.ofText s)

/-- The options of a walk: what the user names wins over the settings, and the depth is bounded. -/
def walkOptions (settings : Settings) (maxDepth maxEntries : Option Nat) : WalkOptions :=
  WalkOptions.clamped
    ⟨maxDepth.getD settings.sequence.maxDepth, maxEntries.getD settings.sequence.maxEntries⟩

end Settings

/-- Why settings cannot be loaded. -/
inductive SettingsError where
  | unreadable (path : String) (cause : FileError)
  | invalid (path : String)
  deriving DecidableEq, Repr

namespace SettingsError

def message : SettingsError → String
  | unreadable path _ => "failed to read config " ++ path
  | invalid path => "invalid TOML in " ++ path

/-- The message of an error and, if it has a cause of its own, that of the cause. -/
def chain : SettingsError → List String
  | unreadable path cause => [message (unreadable path cause), cause.message]
  | invalid path => [message (invalid path)]

end SettingsError

/-- The settings in the file at a path, which has to be there. -/
def FileSystem.loadSettings (files : FileSystem) (path : String) :
    Except SettingsError Settings :=
  match files.contentAt path with
  | .error cause => .error (.unreadable path cause)
  | .ok content =>
    if Utf8.isValid ⟨content.toArray⟩ then
      match Settings.ofText (Utf8.decode content) with
      | some settings => .ok settings
      | none => .error (.invalid path)
    else .error (.unreadable path .noText)

end JavaDiagram
