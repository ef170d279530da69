import JavaDiagram.Text.Digits

/-!
# The command line

The arguments are global options, a command, and the options and paths of the command. Paths
without a command mean the class diagram. Options and paths may mix, and behind `--` all is a path.
An option stands at most once on each side of the command; of a global option on both sides the
inner one counts.
-/

namespace JavaDiagram.CommandLine

/-- What the program can be asked for. -/
inductive Command where
  | classDiagram
  /-- The calls from an entry method, or from the first entry methods. -/
  | sequence (entry : Option (String × String)) (maxDepth maxEntries : Option Nat)
  | model
  deriving DecidableEq, Repr

/-- A well formed command line. -/
structure Invocation where
  command : Command
  paths : List String
  output : Option String
  config : Option String
  logLevel : Option String
  deriving DecidableEq, Repr

/-- Why there is nothing to run. -/
inductive Stop where
  | help
  | misuse
  deriving DecidableEq, Repr

/-! ### Options -/

/-- The options that take a value. -/
inductive Setting where
  | config
  | logLevel
  | output
  | className
  | methodName
  | maxDepth
  | maxEntries
  deriving DecidableEq, Repr

namespace Setting

def long : Setting → String
  | config => "config"
  | logLevel => "log-level"
  | output => "output"
  | className => "class"
  | methodName => "method"
  | maxDepth => "max-depth"
  | maxEntries => "max-entries"

def short? : Setting → Option Char
  | output => some 'o'
  | _ => none

/-- Whether a value may be given: a path is not empty, and a limit is a count. -/
def accepts : Setting → String → Bool
  | config, value | output, value => !value.isEmpty
  | logLevel, _ | className, _ | methodName, _ => true
  | maxDepth, value | maxEntries, value => (Text.count? value.toList).isSome

/-- The options that may stand on both sides of the command. -/
def globals : List Setting := [config, logLevel]

end Setting

/-- Options with their values. -/
abbrev Given := List (Setting × String)

/-- Adds an option that is not there yet. -/
def Given.add (given : Given) (setting : Setting) (value : String) : Except Stop Given :=
  if (given.lookup setting).isNone && setting.accepts value then .ok ((setting, value) :: given)
  else .error .misuse

def Given.count? (given : Given) (setting : Setting) : Option Nat :=
  (given.lookup setting).bind fun value => Text.count? value.toList

/-- The entry method that options name. Its two names belong together. -/
def Given.entry (given : Given) : Except Stop (Option (String × String)) :=
  match given.lookup .className, given.lookup .methodName with
  | some className, some methodName => .ok (some (className, methodName))
  | none, none => .ok none
  | _, _ => .error .misuse

/-! ### Arguments -/

/-- What a single argument is. -/
inductive Argument where
  | plain (text : String)
  | separator
  | help
  /-- An option; its value may be attached, else it is the next argument. -/
  | setting (setting : Setting) (attached : Option String)
  deriving DecidableEq, Repr

/-- Whether an argument is no value: it starts with a dash and is more than a dash. -/
def isDashed (arg : String) : Bool :=
  match arg.toList with
  | '-' :: _ :: _ => true
  | _ => false

/-- The part of an argument behind its first sign of equality. -/
def attachedValue (cs : List Char) : Option String :=
  match cs.dropWhile (· != '=') with
  | _ :: value => some (String.ofList value)
  | [] => none

def longOption (known : List Setting) (cs : List Char) : Option Argument :=
  let name := String.ofList (cs.takeWhile (· != '='))
  match attachedValue cs with
  | none =>
    if name = "help" then some .help
    else (known.find? (·.long == name)).map (.setting · none)
  | some value => (known.find? (·.long == name)).map (.setting · (some value))

def shortOption (known : List Setting) (c : Char) (rest : List Char) : Option Argument :=
  if c = 'h' then some .help
  else (known.find? (·.short? == some c)).map fun setting =>
    match rest with
    | [] => .setting setting none
    | '=' :: value => .setting setting (some (String.ofList value))
    | value => .setting setting (some (String.ofList value))

/-- Reads an argument; none if it is an unknown option. -/
def Argument.ofText (known : List Setting) (arg : String) : Option Argument :=
  match arg.toList with
  | ['-', '-'] => some .separator
  | '-' :: '-' :: rest => longOption known rest
  | '-' :: c :: rest => shortOption known c rest
  | _ => some (.plain arg)

/-! ### Behind the command -/

/-- Paths are not empty. -/
def checkedPaths (paths : List String) : Except Stop (List String) :=
  if paths.any (·.isEmpty) then .error .misuse else .ok paths

/-- The options and the paths behind a command. -/
def readCommand (known : List Setting) (given : Given) :
    List String → Except Stop (Given × List String)
  | [] => .ok (given, [])
  | arg :: rest =>
    match Argument.ofText known arg with
    | none => .error .misuse
    | some .help => .error .help
    | some .separator => do return (given, ← checkedPaths rest)
    | some (.plain path) => do
      let first ← checkedPaths [path]
      let (given, paths) ← readCommand known given rest
      return (given, first ++ paths)
    | some (.setting setting (some value)) => do
      readCommand known (← given.add setting value) rest
    | some (.setting setting none) =>
      match rest with
      | [] => .error .misuse
      | value :: rest => do
        if isDashed value then .error .misuse
        else readCommand known (← given.add setting value) rest

/-- The names of the commands. -/
inductive CommandName where
  | classDiagram
  | sequence
  | model
  deriving DecidableEq, Repr

namespace CommandName

def all : List CommandName := [classDiagram, sequence, model]

def word : CommandName → String
  | classDiagram => "class"
  | sequence => "sequence"
  | model => "model"

/-- The options that may stand behind a command. -/
def settings : CommandName → List Setting
  | sequence => Setting.globals ++ [.output, .className, .methodName, .maxDepth, .maxEntries]
  | _ => Setting.globals ++ [.output]

def command (name : CommandName) (given : Given) : Except Stop Command :=
  match name with
  | classDiagram => .ok .classDiagram
  | model => .ok .model
  | sequence => do
    let entry ← given.entry
    return .sequence entry (given.count? .maxDepth) (given.count? .maxEntries)

/-- The invocation of a command with the options on both sides of it. -/
def invocation (name : CommandName) (outer inner : Given) (paths : List String) :
    Except Stop Invocation := do
  let command ← name.command inner
  if paths.isEmpty then .error .misuse
  else
    return {
      command, paths
      output := inner.lookup .output
      config := (inner.lookup .config).or (outer.lookup .config)
      logLevel := (inner.lookup .logLevel).or (outer.lookup .logLevel) }

end CommandName

/-! ### In front of the command -/

def helpWord : String := "help"

/-- The words that may stand where a command is expected. -/
def commandWords : List String := CommandName.all.map (·.word) ++ [helpWord]

/-- Help is there for the whole and for each command. -/
def helpOn : List String → Stop
  | [] => .help
  | [topic] => if commandWords.contains topic then .help else .misuse
  | _ => .misuse

/-- Reads the arguments from the options in front of the command on. Whether the last of these may
be given with its value is known only when it is needed, so help comes first. -/
def readFrom (given : Except Stop Given) : List String → Except Stop Invocation
  | [] => .error .misuse
  | arg :: rest =>
    if arg = helpWord then .error (helpOn rest)
    else
      match CommandName.all.find? (·.word == arg) with
      | some name => do
        let (inner, paths) ← readCommand name.settings [] rest
        -- Help behind the command comes before a fault in front of it.
        name.invocation (← given) inner paths
      | none =>
        match Argument.ofText Setting.globals arg with
        | some .help => do
          let _ ← given
          .error .help
        | some (.setting setting (some value)) => do
          readFrom (.ok (← (← given).add setting value)) rest
        | some (.setting setting none) =>
          match rest with
          | [] => .error .misuse
          | value :: rest => do
            let outer ← given
            if isDashed value then .error .misuse else readFrom (outer.add setting value) rest
        | _ => .error .misuse

/-- Puts the class command in front of a word that is no command. -/
def named : List String → List String
  | [] => []
  | word :: rest =>
    if commandWords.contains word then word :: rest
    else CommandName.classDiagram.word :: word :: rest

/-- Puts the class command in front of paths without a command. Options are passed over, global ones
with their values. -/
def withCommand : List String → List String
  | [] => []
  | arg :: rest =>
    if arg = "--" then arg :: named rest
    else if Setting.globals.any (fun setting => arg == "--" ++ setting.long) then
      match rest with
      | [] => [arg]
      | value :: rest => arg :: value :: withCommand rest
    -- Any other option has its value attached, or is unknown, and stands alone.
    else if arg.toList.head? == some '-' then arg :: withCommand rest
    else named (arg :: rest)

/-- What the user is told about the arguments. -/
def usage : String :=
  "Generate Mermaid class and sequence diagrams from Java sources\n\n" ++
  "Usage: diagramerz [OPTIONS] <COMMAND> [PATH]...\n\n" ++
  "Commands:\n" ++
  "  class     Class diagram of every class, interface and enum found\n" ++
  "  sequence  Call sequence from one entry method, or from the first public methods found\n" ++
  "  model     The extracted model and the reports on its units as JSON\n" ++
  "  help      Print this message\n\n" ++
  "Options:\n" ++
  "      --config <FILE>      Settings file (TOML)\n" ++
  "      --log-level <LEVEL>  Log filter\n" ++
  "  -o, --output <FILE>      File to write instead of the standard output\n" ++
  "      --class <NAME>       Class of the entry method (sequence)\n" ++
  "      --method <NAME>      Name of the entry method (sequence)\n" ++
  "      --max-depth <N>      Greatest depth of calls (sequence)\n" ++
  "      --max-entries <N>    Greatest number of entry methods (sequence)\n" ++
  "  -h, --help               Print this message\n"

/-- The invocation that arguments ask for. -/
def read (args : List String) : Except Stop Invocation :=
  readFrom (.ok []) (withCommand args)

end JavaDiagram.CommandLine
