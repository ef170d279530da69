import JavaDiagram.Program
import JavaDiagram.Proofs.FileTrees
import JavaDiagram.Proofs.LoadedSources

/-!
# What a run leaves behind

A run reads its arguments, loads its settings, starts its log, loads its inputs, parses them and
makes its text, and only then writes. So a run that meets an obstacle before it has its text fails
with an empty output and leaves the file tree as it was, whichever input the obstacle lies in.
Without an obstacle the text is there, and goes to the standard output and nowhere else, or to the
one file that is named. All this holds on every host, whatever the log, the parser and the schedule
do.
-/

namespace JavaDiagram

open CommandLine

/-- What keeps a run from making its text. -/
inductive Obstacle (environment : Environment) (files : FileSystem) (host : Host)
    (invocation : Invocation) : Prop where
  | settings (path : String) (cause : SettingsError)
      (chosen : environment.config? files invocation.config = some path)
      (failed : files.loadSettings path = .error cause)
  | logFilter (settings : Settings)
      (loaded : loadSettings environment files invocation.config = .ok settings)
      (invalid : LogFilter.isFilter
        (environment.logFilter invocation.logLevel settings.logLevel) = false)
  | logStart (message : String) (failed : host.logFault? = some message)
  | input (path : String) (cause : SourceError) (listed : path ∈ invocation.paths)
      (failed : files.loadPath path host.schedule = .error cause)
  | parsing (units : List SourceUnit) (unit : SourceUnit) (cause : Java.TreeError)
      (loaded : files.load invocation.paths host.schedule = .ok units) (listed : unit ∈ units)
      (failed : host.parser.read unit.origin unit.text = .error cause)

/-- The text that a run has to make: what its command makes of its inputs with its settings. -/
def IsResult (environment : Environment) (files : FileSystem) (host : Host)
    (invocation : Invocation) (text : String) : Prop :=
  ∃ settings units analysis, loadSettings environment files invocation.config = .ok settings ∧
    files.load invocation.paths host.schedule = .ok units ∧
    Analysis.ofSources host.parser units = .ok analysis ∧
    text = invocation.command.text settings units analysis

namespace Outcome

/-- The run fails and leaves nothing. -/
structure LeavesNothing (outcome : Outcome) (before : FileSystem) : Prop where
  fails : outcome.status ≠ 0
  silent : outcome.output = ""
  untouched : outcome.files = before

/-- The run writes a text to the standard output, with a line feed at its end. -/
structure Prints (outcome : Outcome) (before : FileSystem) (text : String) : Prop where
  succeeds : outcome.status = 0
  shows : ['\n'] <:+ text.toList ∧ outcome.output = text ∨
    ¬ ['\n'] <:+ text.toList ∧ outcome.output = text ++ "\n"
  untouched : outcome.files = before

/-- The run writes a text to a file as it is. -/
structure Stores (outcome : Outcome) (before : FileSystem) (path text : String) : Prop where
  succeeds : outcome.status = 0
  silent : outcome.output = ""
  written : FileSystem.IsWritten path text.toUTF8.toList before outcome.files

/-- The run cannot write its file. Directories on the way to it may be there now. -/
structure BreaksOff (outcome : Outcome) (before : FileSystem) (path : String) : Prop where
  fails : outcome.status ≠ 0
  silent : outcome.output = ""
  created : FileSystem.OnlyCreates (before.way path) before outcome.files

end Outcome

/-! ### Making the text -/

/-- All items have a result exactly if there is a list of results. -/
theorem exists_forall₂_iff {α β : Type} {relates : α → β → Prop} {items : List α} :
    (∃ results, List.Forall₂ relates items results) ↔
      ∀ item ∈ items, ∃ result, relates item result := by
  induction items with
  | nil => simp
  | cons item rest ih =>
    rw [List.forall_mem_cons, ← ih]
    constructor
    · rintro ⟨_, related | ⟨related, later⟩⟩
      exact ⟨⟨_, related⟩, _, later⟩
    · rintro ⟨⟨result, related⟩, results, later⟩
      exact ⟨result :: results, .cons related later⟩

theorem exists_mapM_ok_iff {α β Cause : Type} {f : α → Except Cause β} {items : List α} :
    (∃ results, items.mapM f = .ok results) ↔ ∀ item ∈ items, ∃ result, f item = .ok result := by
  simp only [mapM_eq_ok_iff, exists_forall₂_iff]

theorem exists_load_ok_iff {files : FileSystem} {schedule : Schedule} {paths : List String} :
    (∃ units, files.load paths schedule = .ok units) ↔
      ∀ path ∈ paths, ∃ units, files.loadPath path schedule = .ok units := by
  simp only [FileSystem.loadPath_eq_ok_iff]
  rw [← exists_forall₂_iff]
  simp only [FileSystem.load_eq_ok_iff]
  constructor
  · rintro ⟨_, parts, loaded, _⟩
    exact ⟨parts, loaded⟩
  · rintro ⟨parts, loaded⟩
    exact ⟨_, parts, loaded, rfl⟩

theorem exists_ofSources_ok_iff {parser : Java.Parser} {units : List SourceUnit} :
    (∃ analysis, Analysis.ofSources parser units = .ok analysis) ↔
      ∀ unit ∈ units, ∃ parsed, parser.read unit.origin unit.text = .ok parsed := by
  rw [← exists_mapM_ok_iff]
  unfold Analysis.ofSources
  cases units.mapM fun unit => parser.read unit.origin unit.text <;>
    simp [bind, Except.bind, pure, Except.pure]

theorem startLog_eq_ok_iff {host : Host} {filter : String} :
    host.startLog filter = .ok () ↔ LogFilter.isFilter filter = true ∧ host.logFault? = none := by
  unfold Host.startLog
  split
  next valid => cases fault : host.logFault? <;> simp [valid]
  next invalid => simp [invalid]

theorem produce_eq_ok_iff {environment : Environment} {files : FileSystem} {host : Host}
    {invocation : Invocation} {text : String} :
    produce environment files invocation host = .ok text ↔
      ∃ settings units analysis,
        loadSettings environment files invocation.config = .ok settings ∧
        host.startLog (environment.logFilter invocation.logLevel settings.logLevel) = .ok () ∧
        files.load invocation.paths host.schedule = .ok units ∧
        Analysis.ofSources host.parser units = .ok analysis ∧
        text = invocation.command.text settings units analysis := by
  unfold produce
  -- Each stage that fails ends the run with its own error, so a text needs all of them.
  cases loaded : loadSettings environment files invocation.config with
  | error cause => simp [bind, Except.bind]
  | ok settings =>
    cases started : host.startLog (environment.logFilter invocation.logLevel settings.logLevel) with
    | error cause => simp [bind, Except.bind, started]
    | ok _ =>
      cases read : files.load invocation.paths host.schedule with
      | error cause => simp [bind, Except.bind, started, Except.mapError]
      | ok units =>
        cases parsed : Analysis.ofSources host.parser units with
        | error cause => simp [bind, Except.bind, started, parsed, Except.mapError]
        | ok analysis =>
          simp only [bind, Except.bind, started, parsed, Except.mapError, pure, Except.pure]
          constructor
          · intro made
            exact ⟨settings, units, analysis, rfl, started, rfl, parsed,
              (Except.ok.inj made).symm⟩
          · rintro ⟨_, _, _, ⟨⟩, _, ⟨⟩, parsed', rfl⟩
            cases parsed.symm.trans parsed'
            rfl

/-- Settings fail to load exactly if there is a file for them that cannot be loaded. -/
theorem exists_loadSettings_error_iff {environment : Environment} {files : FileSystem}
    {named : Option String} :
    (∃ error, loadSettings environment files named = .error error) ↔
      ∃ path cause, environment.config? files named = some path ∧
        files.loadSettings path = .error cause := by
  unfold loadSettings
  cases environment.config? files named with
  | none => simp
  | some path => cases read : files.loadSettings path <;> simp [Except.mapError, read]

variable {environment : Environment} {files : FileSystem} {host : Host} {invocation : Invocation}

theorem exists_produce_error (obstacle : Obstacle environment files host invocation) :
    ∃ error, produce environment files invocation host = .error error := by
  cases made : produce environment files invocation host with
  | error error => exact ⟨error, rfl⟩
  | ok text =>
    obtain ⟨settings, units, analysis, loaded, started, read, parsed, _⟩ :=
      produce_eq_ok_iff.mp made
    obtain ⟨valid, unbroken⟩ := startLog_eq_ok_iff.mp started
    -- A text shows that every stage went well, also the one that the obstacle lies in.
    cases obstacle with
    | settings path cause chosen failed =>
      obtain ⟨error, failed⟩ := exists_loadSettings_error_iff.mpr ⟨path, cause, chosen, failed⟩
      rw [loaded] at failed
      cases failed
    | logFilter other loaded' invalid =>
      cases loaded.symm.trans loaded'
      rw [valid] at invalid
      cases invalid
    | logStart message failed =>
      rw [unbroken] at failed
      cases failed
    | input path cause listed failed =>
      obtain ⟨part, read⟩ := exists_load_ok_iff.mp ⟨units, read⟩ path listed
      rw [read] at failed
      cases failed
    | parsing other unit cause read' listed failed =>
      cases read.symm.trans read'
      obtain ⟨tree, made⟩ := exists_ofSources_ok_iff.mp ⟨analysis, parsed⟩ unit listed
      rw [made] at failed
      cases failed

theorem exists_produce_ok (clear : ¬ Obstacle environment files host invocation) :
    ∃ text, produce environment files invocation host = .ok text ∧
      IsResult environment files host invocation text := by
  cases loaded : loadSettings environment files invocation.config with
  | error error =>
    obtain ⟨path, cause, chosen, failed⟩ := exists_loadSettings_error_iff.mp ⟨error, loaded⟩
    exact absurd (.settings path cause chosen failed) clear
  | ok settings =>
    have started : host.startLog
        (environment.logFilter invocation.logLevel settings.logLevel) = .ok () := by
      apply startLog_eq_ok_iff.mpr
      rw [← Bool.not_eq_false, Option.eq_none_iff_forall_ne_some]
      exact ⟨fun invalid => clear (.logFilter settings loaded invalid),
        fun message failed => clear (.logStart message failed)⟩
    have each : ∀ path ∈ invocation.paths,
        ∃ units, files.loadPath path host.schedule = .ok units := by
      intro path listed
      cases failed : files.loadPath path host.schedule with
      | error cause => exact absurd (.input path cause listed failed) clear
      | ok units => exact ⟨units, rfl⟩
    obtain ⟨units, read⟩ := exists_load_ok_iff.mpr each
    have each_tree : ∀ unit ∈ units,
        ∃ parsed, host.parser.read unit.origin unit.text = .ok parsed := by
      intro unit listed
      cases failed : host.parser.read unit.origin unit.text with
      | error cause => exact absurd (.parsing units unit cause read listed failed) clear
      | ok parsed => exact ⟨parsed, rfl⟩
    obtain ⟨analysis, parsed⟩ := exists_ofSources_ok_iff.mpr each_tree
    exact ⟨_, produce_eq_ok_iff.mpr ⟨settings, units, analysis, loaded, started, read, parsed, rfl⟩,
      settings, units, analysis, loaded, read, parsed, rfl⟩

/-! ### Writing the text -/

theorem deliver_none (files : FileSystem) (text : String) :
    (deliver files text none).Prints files text := by
  refine ⟨rfl, ?_, rfl⟩
  have ends : (text.toList.getLast? == some '\n') = true ↔ ['\n'] <:+ text.toList := by
    rw [beq_iff_eq, List.getLast?_eq_some_iff]
    exact exists_congr fun front => eq_comm
  rw [← ends]
  simp only [deliver, Outcome.success, terminated]
  split
  next ended => exact Or.inl ⟨ended, rfl⟩
  next open_ended => exact Or.inr ⟨open_ended, rfl⟩

theorem withParent_onlyCreates (files : FileSystem) (path : String) :
    FileSystem.OnlyCreates (files.way path) files (FileSystem.leftBy (withParent files path)) := by
  unfold withParent
  split
  next parent held =>
    obtain ⟨held, filled⟩ := Option.filter_eq_some_iff.mp held
    have created := (files.createDirectories_onlyCreates parent).mono
      (files.way_parentText_subset held (by simpa using filled))
    cases made : files.createDirectories parent with
    | error failure => rw [made] at created; exact created
    | ok after => rw [made] at created; exact created
  next => exact .refl _ files

theorem deliver_some (files : FileSystem) (path text : String) :
    (deliver files text (some path)).Stores files path text ∨
      (deliver files text (some path)).BreaksOff files path := by
  have created := withParent_onlyCreates files path
  -- Directories that were created before a failure stay; no file is touched then.
  cases prepare : withParent files path with
  | error failure =>
    rw [prepare] at created
    simp only [deliver, prepare]
    exact Or.inr ⟨Nat.one_ne_zero, rfl, created⟩
  | ok prepared =>
    rw [prepare] at created
    cases write : prepared.writeFile path text.toUTF8.toList with
    | error cause =>
      simp only [deliver, prepare, write]
      exact Or.inr ⟨Nat.one_ne_zero, rfl, created⟩
    | ok after =>
      simp only [deliver, prepare, write]
      exact Or.inl ⟨rfl, rfl, FileSystem.isWritten_of_writeFile created write⟩

/-! ### Whole runs -/

theorem run_of_error {args : List String} {error : RunError}
    (asked : read args = .ok invocation)
    (failed : produce environment files invocation host = .error error) :
    (run args environment files host).LeavesNothing files := by
  simp only [run, asked, failed]
  exact ⟨Nat.one_ne_zero, rfl, rfl⟩

theorem run_of_ok {args : List String} {text : String} (asked : read args = .ok invocation)
    (made : produce environment files invocation host = .ok text) :
    run args environment files host = deliver files text invocation.output := by
  simp only [run, asked, made]

/-- A run that is refused, or that meets an obstacle, leaves nothing. Without an obstacle there is
one text, the same wherever it goes: the standard output gets it, with a line feed at its end, or
the named file and its directories, and nothing else changes. -/
theorem run_leaves_nothing_or_text (environment : Environment) (files : FileSystem) (host : Host) :
    (∀ args, read args = .error .misuse → (run args environment files host).LeavesNothing files) ∧
    ∀ invocation,
      (Obstacle environment files host invocation → ∀ args output,
        read args = .ok { invocation with output } →
          (run args environment files host).LeavesNothing files) ∧
      (¬ Obstacle environment files host invocation →
        ∃ text, IsResult environment files host invocation text ∧ ∀ args,
          (read args = .ok { invocation with output := none } →
            (run args environment files host).Prints files text) ∧
          ∀ path, read args = .ok { invocation with output := some path } →
            (run args environment files host).Stores files path text ∨
              (run args environment files host).BreaksOff files path) := by
  refine ⟨fun args refused => ?_, fun invocation => ⟨fun obstacle args output asked => ?_,
    fun clear => ?_⟩⟩
  · simp only [run, refused]
    exact ⟨Nat.succ_ne_zero 1, rfl, rfl⟩
  · obtain ⟨error, failed⟩ := exists_produce_error obstacle
    exact run_of_error asked failed
  · obtain ⟨text, made, result⟩ := exists_produce_ok clear
    refine ⟨text, result, fun args => ⟨fun asked => ?_, fun path asked => ?_⟩⟩
    · rw [run_of_ok asked made]
      exact deliver_none files text
    · rw [run_of_ok asked made]
      exact deliver_some files path text

/-- A working directory with a directory for sources and one source in it. -/
def oneSource : FileSystem where
  workingDirectory := ["work"]
  entries :=
    [(["work"], .directory), (["work", "src"], .directory),
      (["work", "src", "A.java"], .file "class A { }".toUTF8.toList)]

/-- A host on which the grammar cannot be loaded. -/
def hostWithoutGrammar : Host where
  parser := { fault? := some "Incompatible language version 12" }

/-- The class diagram of paths, with no options. -/
def classOf (paths : List String) : Invocation :=
  ⟨.classDiagram, paths, none, none, none⟩

theorem oneSource_load : ∃ unit, oneSource.load ["src"] = .ok [unit] := by
  have single : (oneSource.load ["src"]).toOption.map List.length = some 1 := by decide +kernel
  cases read : oneSource.load ["src"] with
  | error error =>
    rw [read] at single
    cases single
  | ok units =>
    rw [read] at single
    obtain ⟨unit, rfl⟩ := List.length_eq_one_iff.mp (Option.some.inj single)
    exact ⟨unit, rfl⟩

theorem run_src_and_nope :
    read ["src", "-x"] = .error .misuse ∧
    (run ["src", "-x"] [] oneSource).LeavesNothing oneSource ∧
    read ["src", "nope.java"] = .ok (classOf ["src", "nope.java"]) ∧
    Obstacle [] oneSource {} (classOf ["src", "nope.java"]) ∧
    (run ["src", "nope.java"] [] oneSource).LeavesNothing oneSource ∧
    Obstacle [] oneSource hostWithoutGrammar (classOf ["src"]) ∧
    (run ["src"] [] oneSource hostWithoutGrammar).LeavesNothing oneSource ∧
    read ["src", "-o", "out/d.mmd"] = .ok { classOf ["src"] with output := some "out/d.mmd" } ∧
    ¬ Obstacle [] oneSource {} (classOf ["src"]) ∧
    ∃ text, IsResult [] oneSource {} (classOf ["src"]) text ∧
      (run ["src"] [] oneSource).Prints oneSource text ∧
      (run ["src", "-o", "out/d.mmd"] [] oneSource).Stores oneSource "out/d.mmd" text := by
  obtain ⟨unit, loads⟩ := oneSource_load
  have absent : Obstacle [] oneSource {} (classOf ["src", "nope.java"]) :=
    .input "nope.java" (.file "nope.java" .notFound) (List.mem_cons_of_mem _ List.mem_cons_self) rfl
  have unparsed : Obstacle [] oneSource hostWithoutGrammar (classOf ["src"]) :=
    .parsing [unit] unit _ loads List.mem_cons_self rfl
  have clear : ¬ Obstacle [] oneSource {} (classOf ["src"]) := by
    rintro (⟨_, _, chosen, _⟩ | ⟨settings, loaded, invalid⟩ | ⟨_, failed⟩ |
      ⟨path, cause, listed, failed⟩ | ⟨units, unit, cause, loaded, listed, failed⟩)
    · cases chosen
    · cases loaded
      have valid : LogFilter.isFilter (Environment.logFilter [] none none) = true := by
        decide +kernel
      exact absurd invalid (Bool.not_eq_false _ ▸ valid)
    · cases failed
    · obtain ⟨part, read⟩ := exists_load_ok_iff.mp ⟨[unit], loads⟩ path listed
      rw [read] at failed
      cases failed
    · obtain ⟨parsed, read⟩ :=
        exists_ofSources_ok_iff.mp ⟨_, Analysis.ofSources_grammar units⟩ unit listed
      rw [read] at failed
      cases failed
  obtain ⟨refused, asked⟩ := run_leaves_nothing_or_text [] oneSource {}
  obtain ⟨_, asked'⟩ := run_leaves_nothing_or_text [] oneSource hostWithoutGrammar
  obtain ⟨text, result, delivered⟩ := (asked (classOf ["src"])).2 clear
  have stored := (delivered ["src", "-o", "out/d.mmd"]).2 "out/d.mmd" rfl
  have succeeds : (run ["src", "-o", "out/d.mmd"] [] oneSource).status = 0 := by decide +kernel
  exact ⟨rfl, refused ["src", "-x"] rfl, rfl, absent,
    (asked (classOf ["src", "nope.java"])).1 absent ["src", "nope.java"] none rfl, unparsed,
    (asked' (classOf ["src"])).1 unparsed ["src"] none rfl, rfl, clear,
    text, result, (delivered ["src"]).1 rfl,
    stored.resolve_right fun broken => broken.fails succeeds⟩

end JavaDiagram
