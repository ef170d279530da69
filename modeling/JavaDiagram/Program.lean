import JavaDiagram.Analysis
import JavaDiagram.CommandLine
import JavaDiagram.LogFilter
import JavaDiagram.Model.Document
import JavaDiagram.Settings
import JavaDiagram.Source

/-!
# The program

A run takes arguments, environment variables and a file tree to an outcome: a status, a text for the
standard output, a report of what went wrong, and the file tree afterwards. It takes its log, its
parser and its schedule from the host, and each of them may fail it. A text is made in full before
any of it is written, so a run that fails to make one changes no file.
-/

namespace JavaDiagram

open CommandLine

/-- The environment variables. -/
abbrev Environment := List (String × String)

/-- The variable that names a settings file. -/
def configVariable : String := "DIAGRAMERZ_CONFIG"

/-- The variables that hold a log filter; the first wins. -/
def logVariables : List String := ["DIAGRAMERZ_LOG", "RUST_LOG"]

/-- The variable that holds the directory of all settings of a user. -/
def configHomeVariable : String := "XDG_CONFIG_HOME"

def homeVariable : String := "HOME"

namespace Environment

/-- All variables that a run looks at. -/
def names : List String :=
  [configVariable, configHomeVariable, homeVariable] ++ logVariables

/-- A variable that is not empty. -/
def filled? (environment : Environment) (name : String) : Option String :=
  (environment.lookup name).filter (!·.isEmpty)

/-- The directory of a user's settings. -/
def configDirectory? (environment : Environment) : Option String :=
  -- A relative directory counts for nothing.
  ((environment.lookup configHomeVariable).filter (Text.startsWith · "/")).or
    ((environment.filled? homeVariable).map (Path.join · ".config"))

/-- The settings file of a user. -/
def userConfig? (environment : Environment) : Option String :=
  environment.configDirectory?.map fun directory =>
    Path.join (Path.join directory "diagramerz") "config.toml"

/-- The settings file of a run: the one named by an argument, the one named by the environment, or
the user's own if it is there. -/
def config? (environment : Environment) (files : FileSystem) (named : Option String) :
    Option String :=
  (named.or (environment.filled? configVariable)).or
    (environment.userConfig?.filter files.hasEntry)

def logFilter (environment : Environment) (named settings : Option String) : String :=
  LogFilter.choose (named :: logVariables.map (environment.lookup ·) ++ [settings])

end Environment

/-- What a run depends on besides its arguments, its environment and its files. -/
structure Host where
  /-- Why the log cannot be started, if it cannot. -/
  logFault? : Option String := none
  parser : Java.Parser := {}
  schedule : Schedule := .inOrder

/-- Why a run fails. -/
inductive RunError where
  | settings (cause : SettingsError)
  | logFilter (filter : String)
  | logStart (message : String)
  | load (cause : LoadError)
  | parse (cause : Java.TreeError)
  | create (path : String) (cause : FileError)
  | write (path : String) (cause : FileError)
  deriving DecidableEq, Repr

/-- The messages of an error, from the outermost to the first cause. -/
def RunError.chain : RunError → List String
  | settings cause => cause.chain
  | logFilter filter => ["invalid log level `" ++ filter ++ "`"]
  | logStart message => ["failed to install log subscriber: " ++ message]
  | load cause => cause.chain
  | parse cause => ["failed to parse Java sources", cause.message]
  | create path cause => ["failed to create " ++ path, cause.message]
  | write path cause => ["failed to write " ++ path, cause.message]

/-! ### Making the text -/

/-- The document of loaded units and their analysis. -/
def modelDocument (units : List SourceUnit) (analysis : Analysis) : Json :=
  .object [
    ("units", .array (units.map fun unit =>
      .object [("origin", .string unit.origin), ("content_hash", .string unit.contentHash)])),
    ("model", analysis.model.document),
    ("reports", .array (analysis.reports.map (·.document)))]

/-- The text that a command makes of loaded units and their analysis. -/
def CommandLine.Command.text (command : Command) (settings : Settings) (units : List SourceUnit)
    (analysis : Analysis) : String :=
  match command with
  | .classDiagram => ClassDiagram.render analysis.model
  | .sequence entry maxDepth maxEntries =>
    let options := settings.walkOptions maxDepth maxEntries
    (analysis.sequence (entry.map (·.1)) (entry.map (·.2)) options).render
  | .model => (modelDocument units analysis).render

/-- The settings of a run. -/
def loadSettings (environment : Environment) (files : FileSystem) (named : Option String) :
    Except RunError Settings :=
  match environment.config? files named with
  | some path => (files.loadSettings path).mapError .settings
  | none => .ok {}

/-- Starts the log with a filter. -/
def Host.startLog (host : Host) (filter : String) : Except RunError Unit :=
  if LogFilter.isFilter filter then
    match host.logFault? with
    | some message => .error (.logStart message)
    | none => .ok ()
  else .error (.logFilter filter)

/-- The text that an invocation makes. -/
def produce (environment : Environment) (files : FileSystem) (invocation : Invocation)
    (host : Host) : Except RunError String := do
  -- Settings and log come before any source is read.
  let settings ← loadSettings environment files invocation.config
  host.startLog (environment.logFilter invocation.logLevel settings.logLevel)
  let units ← (files.load invocation.paths host.schedule).mapError .load
  let analysis ← (Analysis.ofSources host.parser units).mapError .parse
  return invocation.command.text settings units analysis

/-! ### Writing the text -/

/-- The file tree with the directory of a file. If that cannot be created, the tree has the
directories in front of it. -/
def withParent (files : FileSystem) (path : String) :
    Except (RunError × FileSystem) FileSystem :=
  match (Path.parentText path).filter (!·.isEmpty) with
  | some parent =>
    (files.createDirectories parent).mapError fun (cause, left) => (.create parent cause, left)
  | none => .ok files

/-- A text with a line feed at its end. -/
def terminated (text : String) : String :=
  if text.toList.getLast? == some '\n' then text else text ++ "\n"

/-- What a run leaves behind. -/
structure Outcome where
  status : Nat
  /-- The text on the standard output. -/
  output : String
  /-- The text on the standard error. -/
  report : String
  files : FileSystem
  deriving DecidableEq, Repr

/-- The lines for the causes of an error. They are numbered if there are several. -/
def causeLines : List String → List String
  | [] => []
  | [cause] => ["", "Caused by:", "    " ++ cause]
  | causes => "" :: "Caused by:" :: causes.mapIdx fun i cause => s!"    {i}: {cause}"

def RunError.report (error : RunError) : String :=
  match error.chain with
  | [] => ""
  | message :: causes => Text.unlines (("Error: " ++ message) :: causeLines causes)

namespace Outcome

def success (output : String) (files : FileSystem) : Outcome :=
  ⟨0, output, "", files⟩

def failure (error : RunError) (files : FileSystem) : Outcome :=
  ⟨1, "", error.report, files⟩

/-- A run that did not begin. -/
def stopped : Stop → FileSystem → Outcome
  | .help, files => ⟨0, usage, "", files⟩
  | .misuse, files => ⟨2, "", usage, files⟩

end Outcome

/-- Writes a text to a file, or to the standard output. -/
def deliver (files : FileSystem) (text : String) : Option String → Outcome
  | none => .success (terminated text) files
  | some path =>
    match withParent files path with
    | .error (error, left) => .failure error left
    | .ok prepared =>
      -- New directories stay, also if the file cannot be written.
      match prepared.writeFile path text.toUTF8.toList with
      | .error cause => .failure (.write path cause) prepared
      | .ok written => .success "" written

/-- Runs the program. -/
def run (args : List String) (environment : Environment) (files : FileSystem) (host : Host := {}) :
    Outcome :=
  match CommandLine.read args with
  | .error stop => .stopped stop files
  | .ok invocation =>
    match produce environment files invocation host with
    | .error error => .failure error files
    | .ok text => deliver files text invocation.output

end JavaDiagram
