import JavaDiagram.CommandLine

/-!
# Paths without a command

Paths without a command mean the class diagram, also behind global options: the word `class` is put
in front of the first argument that is neither an option nor the value of one, and the reader finds
it there with the same options before it. Behind a separator the word comes too late, for a reader
that expects a command takes nothing that follows `--`; there the paths are refused.
-/

namespace JavaDiagram.CommandLine

/-! ### Global options in front of a command -/

/-- A text that does not start with a dash. -/
def IsUndashed (text : String) : Prop :=
  text.toList.head? ≠ some '-'

instance : DecidablePred IsUndashed := fun _ => inferInstanceAs (Decidable (_ ≠ _))

/-- The argument that names a setting. -/
def Setting.flag (setting : Setting) : String :=
  "--" ++ setting.long

/-- A global option as it is written in front of a command. -/
structure GlobalOption where
  setting : Setting
  value : String
  /-- Whether the value stands behind a sign of equality, and not in an argument of its own. -/
  isAttached : Bool
  isGlobal : setting ∈ Setting.globals
  filled : value ≠ ""
  undashed : IsUndashed value

namespace GlobalOption

/-- The arguments of an option. -/
def words (option : GlobalOption) : List String :=
  if option.isAttached then [option.setting.flag ++ "=" ++ option.value]
  else [option.setting.flag, option.value]

/-- The option that a reader makes of the arguments. -/
def entry (option : GlobalOption) : Setting × String :=
  (option.setting, option.value)

end GlobalOption

/-- The value that options give for a setting. -/
def valueOf (options : List GlobalOption) (setting : Setting) : Option String :=
  (options.map (·.entry)).lookup setting

/-- Paths that stand for the class command: the first one is no word for a command. -/
structure AreBare (paths : List String) : Prop where
  filled : "" ∉ paths
  noCommand : ∃ first, paths.head? = some first ∧ first ∉ commandWords

/-! ### The word for the command -/

theorem AreBare.exists_cons {paths : List String} (bare : AreBare paths) :
    ∃ first rest, paths = first :: rest ∧ first ∉ commandWords := by
  obtain ⟨first, starts, noCommand⟩ := bare.noCommand
  obtain ⟨rest, rfl⟩ := List.head?_eq_some_iff.mp starts
  exact ⟨first, rest, rfl, noCommand⟩

theorem named_of_bare {paths : List String} (bare : AreBare paths) :
    named paths = "class" :: paths := by
  obtain ⟨first, rest, rfl, noCommand⟩ := bare.exists_cons
  rw [named, if_neg (by simpa using noCommand)]
  rfl

/-- Paths that do not look like options get the word right in front of them. -/
theorem withCommand_of_bare {paths : List String} (bare : AreBare paths)
    (undashed : ∀ path ∈ paths, IsUndashed path) : withCommand paths = "class" :: paths := by
  rw [← named_of_bare bare]
  obtain ⟨first, rest, rfl, _⟩ := bare.exists_cons
  have plain : first.toList.head? ≠ some '-' := undashed first List.mem_cons_self
  have noSeparator : first ≠ "--" := by
    rintro rfl
    exact plain rfl
  have noFlag : ¬ Setting.globals.any fun setting => first == setting.flag := by
    rw [List.any_eq_true]
    rintro ⟨setting, _, same⟩
    rw [beq_iff_eq.mp same] at plain
    cases setting <;> exact plain rfl
  have noDash : ¬ (first.toList.head? == some '-') = true := by
    simpa using plain
  rw [withCommand.eq_def]
  simp only [if_neg noSeparator, if_neg noDash]
  exact if_neg noFlag

theorem withCommand_flag {setting : Setting} (isGlobal : setting ∈ Setting.globals)
    (value : String) (rest : List String) :
    withCommand (setting.flag :: value :: rest) = setting.flag :: value :: withCommand rest := by
  have longer : setting.flag ≠ "--" := by
    cases setting <;> decide
  have known : Setting.globals.any fun other => setting.flag == "--" ++ other.long :=
    List.any_eq_true.mpr ⟨setting, isGlobal, beq_self_eq_true _⟩
  rw [withCommand, if_neg longer, if_pos known]

theorem withCommand_dashed {arg : String} (dashed : arg.toList.head? = some '-')
    (longer : arg ≠ "--") (noFlag : ∀ setting : Setting, arg ≠ setting.flag) (rest : List String) :
    withCommand (arg :: rest) = arg :: withCommand rest := by
  have unknown : ¬ Setting.globals.any fun other => arg == "--" ++ other.long := by
    rw [List.any_eq_true]
    rintro ⟨setting, _, same⟩
    exact noFlag setting (beq_iff_eq.mp same)
  rw [withCommand.eq_def]
  simp only [if_neg longer, if_neg unknown, if_pos (beq_iff_eq.mpr dashed)]

theorem toList_attached (setting : Setting) (value : String) :
    (setting.flag ++ "=" ++ value).toList =
      '-' :: '-' :: (setting.long.toList ++ '=' :: value.toList) := by
  simp [Setting.flag]

theorem withCommand_words (option : GlobalOption) (rest : List String) :
    withCommand (option.words ++ rest) = option.words ++ withCommand rest := by
  obtain ⟨setting, value, isAttached, isGlobal, _, _⟩ := option
  cases isAttached with
  | false => exact withCommand_flag isGlobal value rest
  | true =>
    apply withCommand_dashed
    · rw [toList_attached, List.head?_cons]
    · rw [Ne, ← String.toList_inj, toList_attached]
      simp
    · -- The sign of equality is in no name.
      intro other same
      have inName : '=' ∈ other.flag.toList := by
        simp [← same]
      cases other <;> revert inName <;> decide

theorem withCommand_options (options : List GlobalOption) (rest : List String) :
    withCommand (options.flatMap (·.words) ++ rest) =
      options.flatMap (·.words) ++ withCommand rest := by
  induction options with
  | nil => rfl
  | cons option options ih =>
    rw [List.flatMap_cons, List.append_assoc, withCommand_words, ih, List.append_assoc]

/-! ### Reading -/

theorem find?_command_eq_none {arg : String} (noCommand : arg ∉ commandWords) :
    CommandName.all.find? (·.word == arg) = none := by
  rw [List.find?_eq_none]
  intro name listed same
  apply noCommand
  exact List.mem_append_left _ (List.mem_map.mpr ⟨name, listed, beq_iff_eq.mp same⟩)

theorem not_command_of_dashed {arg : String} (dashed : arg.toList.head? = some '-') :
    arg ∉ commandWords := by
  intro listed
  have plain : ∀ word ∈ commandWords, word.toList.head? ≠ some '-' := by decide
  exact plain arg listed dashed

theorem ne_helpWord_of_dashed {arg : String} (dashed : arg.toList.head? = some '-') :
    arg ≠ helpWord := by
  rintro rfl
  exact not_command_of_dashed dashed (by decide)

theorem ofText_flag {setting : Setting} (isGlobal : setting ∈ Setting.globals) :
    Argument.ofText Setting.globals setting.flag = some (.setting setting none) := by
  revert isGlobal
  cases setting <;> decide

theorem ofText_attached {setting : Setting} (isGlobal : setting ∈ Setting.globals)
    (value : String) :
    Argument.ofText Setting.globals (setting.flag ++ "=" ++ value) =
      some (.setting setting (some value)) := by
  rw [Argument.ofText, toList_attached]
  simp only [Setting.globals, List.mem_cons, List.not_mem_nil, or_false] at isGlobal
  rcases isGlobal with rfl | rfl <;> simp [longOption, attachedValue, Setting.globals, Setting.long]

theorem ofText_undashed {known : List Setting} {arg : String} (undashed : IsUndashed arg) :
    Argument.ofText known arg = some (.plain arg) := by
  unfold Argument.ofText
  split
  next chars => simp [IsUndashed, chars] at undashed
  next chars => simp [IsUndashed, chars] at undashed
  next chars => simp [IsUndashed, chars] at undashed
  next => rfl

theorem isDashed_eq_false {arg : String} (undashed : IsUndashed arg) : isDashed arg = false := by
  unfold isDashed
  split
  next chars => simp [IsUndashed, chars] at undashed
  next => rfl

theorem readFrom_flag {setting : Setting} (isGlobal : setting ∈ Setting.globals) {value : String}
    (undashed : IsUndashed value) (given : Given) (rest : List String) :
    readFrom (.ok given) (setting.flag :: value :: rest) =
      readFrom (given.add setting value) rest := by
  have dashed : setting.flag.toList.head? = some '-' := by
    cases setting <;> decide
  rw [readFrom.eq_def]
  simp only [if_neg (ne_helpWord_of_dashed dashed),
    find?_command_eq_none (not_command_of_dashed dashed), ofText_flag isGlobal, bind, Except.bind,
    isDashed_eq_false undashed, Bool.false_eq_true, if_false]

theorem readFrom_attached {setting : Setting} (isGlobal : setting ∈ Setting.globals)
    (value : String) (given : Given) (rest : List String) :
    readFrom (.ok given) ((setting.flag ++ "=" ++ value) :: rest) =
      (given.add setting value).bind fun given => readFrom (.ok given) rest := by
  have dashed : (setting.flag ++ "=" ++ value).toList.head? = some '-' := by
    rw [toList_attached, List.head?_cons]
  rw [readFrom.eq_def]
  simp only [if_neg (ne_helpWord_of_dashed dashed),
    find?_command_eq_none (not_command_of_dashed dashed), ofText_attached isGlobal]
  rfl

/-- An option goes to those that are given so far. -/
theorem readFrom_words (option : GlobalOption) {given : Given}
    (fresh : given.lookup option.setting = none) (rest : List String) :
    readFrom (.ok given) (option.words ++ rest) = readFrom (.ok (option.entry :: given)) rest := by
  obtain ⟨setting, value, isAttached, isGlobal, filled, undashed⟩ := option
  have accepted : setting.accepts value = true := by
    revert isGlobal
    cases setting <;> simp [Setting.globals, Setting.accepts, filled]
  have added : given.add setting value = .ok ((setting, value) :: given) := by
    simp only [Given.add, accepted, fresh]
    rfl
  cases isAttached with
  | false => exact (readFrom_flag isGlobal undashed given rest).trans (by rw [added]; rfl)
  | true => exact (readFrom_attached isGlobal value given rest).trans (by rw [added]; rfl)

theorem lookup_entry (option : GlobalOption) (given : Given) (setting : Setting) :
    List.lookup setting (option.entry :: given) =
      if setting = option.setting then some option.value else given.lookup setting := by
  rw [GlobalOption.entry, List.lookup_cons]
  split <;> simp_all

theorem valueOf_eq_none {options : List GlobalOption} {setting : Setting}
    (absent : setting ∉ options.map (·.setting)) : valueOf options setting = none := by
  rw [valueOf, List.lookup_eq_none_iff]
  intro _ held
  obtain ⟨option, listed, rfl⟩ := List.mem_map.mp held
  rw [bne_iff_ne]
  rintro rfl
  exact absent (List.mem_map_of_mem listed)

/-- Options that are given at most once each are all kept. -/
theorem exists_readFrom_options {options : List GlobalOption}
    (once : (options.map (·.setting)).Nodup) {given : Given}
    (fresh : ∀ option ∈ options, given.lookup option.setting = none) (rest : List String) :
    ∃ kept : Given,
      (∀ setting, kept.lookup setting = (valueOf options setting).or (given.lookup setting)) ∧
      readFrom (.ok given) (options.flatMap (·.words) ++ rest) = readFrom (.ok kept) rest := by
  induction options generalizing given with
  | nil => exact ⟨given, fun _ => rfl, rfl⟩
  | cons option options ih =>
    obtain ⟨absent, once⟩ := List.nodup_cons.mp (List.map_cons ▸ once)
    -- No later option sets what this one sets, so each is still unset when its turn comes.
    have later : ∀ other ∈ options, List.lookup other.setting (option.entry :: given) = none := by
      intro other listed
      have apart : other.setting ≠ option.setting :=
        ne_of_mem_of_not_mem (List.mem_map_of_mem listed) absent
      rw [lookup_entry, if_neg apart]
      exact fresh other (List.mem_cons_of_mem option listed)
    obtain ⟨kept, values, read⟩ := ih once later
    refine ⟨kept, fun setting => ?_, ?_⟩
    · have front : valueOf (option :: options) setting =
          if setting = option.setting then some option.value else valueOf options setting :=
        lookup_entry option _ setting
      rw [values, lookup_entry, front]
      split
      next same => rw [same, valueOf_eq_none absent]; rfl
      next => rfl
    · rw [List.flatMap_cons, List.append_assoc,
        readFrom_words option (fresh option List.mem_cons_self), read]

/-- The reader comes to what follows the options with just their values. -/
theorem exists_readFrom_start {options : List GlobalOption}
    (once : (options.map (·.setting)).Nodup) (rest : List String) :
    ∃ kept : Given, (∀ setting, kept.lookup setting = valueOf options setting) ∧
      readFrom (.ok []) (options.flatMap (·.words) ++ rest) = readFrom (.ok kept) rest := by
  have fresh : ∀ option ∈ options, ([] : Given).lookup option.setting = none := fun _ _ => rfl
  obtain ⟨kept, values, read⟩ := exists_readFrom_options once fresh rest
  exact ⟨kept, fun setting => (values setting).trans Option.or_none, read⟩

theorem readFrom_separator (given : Except Stop Given) (rest : List String) :
    readFrom given ("--" :: rest) = .error .misuse :=
  rfl

/-! ### Behind the command -/

theorem checkedPaths_filled {paths : List String} (filled : "" ∉ paths) :
    checkedPaths paths = .ok paths := by
  rw [checkedPaths, if_neg]
  simpa using filled

theorem readCommand_paths (known : List Setting) (given : Given) {paths : List String}
    (filled : "" ∉ paths) (undashed : ∀ path ∈ paths, IsUndashed path) :
    readCommand known given paths = .ok (given, paths) := by
  induction paths with
  | nil => rfl
  | cons path paths ih =>
    rw [List.mem_cons, not_or] at filled
    have alone : checkedPaths [path] = .ok [path] := checkedPaths_filled (by simpa using filled.1)
    rw [readCommand.eq_def]
    simp only [ofText_undashed (undashed path List.mem_cons_self), alone,
      ih filled.2 fun other listed => undashed other (List.mem_cons_of_mem path listed)]
    rfl

theorem readCommand_separator (known : List Setting) (given : Given) {paths : List String}
    (filled : "" ∉ paths) : readCommand known given ("--" :: paths) = .ok (given, paths) := by
  have separator : Argument.ofText known "--" = some .separator := rfl
  rw [readCommand.eq_def]
  simp only [separator, checkedPaths_filled filled]
  rfl

/-! ### The class command -/

/-- The invocation that global options and paths make of the class command. -/
def classInvocation (options : List GlobalOption) (paths : List String) : Invocation where
  command := .classDiagram
  paths := paths
  output := none
  config := valueOf options .config
  logLevel := valueOf options .logLevel

theorem read_class {options : List GlobalOption} (once : (options.map (·.setting)).Nodup)
    {args paths : List String} (some_path : paths ≠ [])
    (inner : readCommand CommandName.classDiagram.settings [] args = .ok ([], paths)) :
    readFrom (.ok []) (options.flatMap (·.words) ++ "class" :: args) =
      .ok (classInvocation options paths) := by
  obtain ⟨kept, values, read⟩ := exists_readFrom_start once ("class" :: args)
  have noHelp : "class" ≠ helpWord := by decide
  have found : CommandName.all.find? (·.word == "class") = some .classDiagram := rfl
  have given : CommandName.classDiagram.invocation kept [] paths =
      .ok (classInvocation options paths) := by
    simp only [CommandName.invocation, CommandName.command, List.isEmpty_iff, some_path, values]
    simp [classInvocation, bind, Except.bind, pure, Except.pure]
  rw [read, readFrom.eq_def]
  simp only [if_neg noHelp, found, inner]
  exact given

/-- Paths without a command mean the class diagram of these paths with the global options in front
of them, unless a path looks like an option. Behind a separator such paths are always refused, for
the word that is put in front of them is one more argument there; it would have to stand in front of
the separator. -/
theorem read_barePaths {options : List GlobalOption} (once : (options.map (·.setting)).Nodup)
    {paths : List String} (bare : AreBare paths) :
    ((∀ path ∈ paths, IsUndashed path) →
      read (options.flatMap (·.words) ++ paths) = .ok (classInvocation options paths)) ∧
    read (options.flatMap (·.words) ++ "--" :: paths) = .error .misuse ∧
    read (options.flatMap (·.words) ++ "class" :: "--" :: paths) =
      .ok (classInvocation options paths) := by
  have some_path : paths ≠ [] := by
    obtain ⟨first, rest, rfl, _⟩ := bare.exists_cons
    exact List.cons_ne_nil first rest
  refine ⟨fun undashed => ?_, ?_, ?_⟩
  · rw [read, withCommand_options, withCommand_of_bare bare undashed]
    exact read_class once some_path (readCommand_paths _ [] bare.filled undashed)
  · obtain ⟨kept, _, rest⟩ := exists_readFrom_start once ("--" :: named paths)
    have separated : withCommand ("--" :: paths) = "--" :: named paths := by
      rw [withCommand.eq_def]
      rfl
    rw [read, withCommand_options, separated, rest, readFrom_separator]
  · have explicit : withCommand ("class" :: "--" :: paths) = "class" :: "--" :: paths := rfl
    rw [read, withCommand_options, explicit]
    exact read_class once some_path (readCommand_separator _ [] bare.filled)

/-- A level in an argument of its own and an attached settings file. -/
def orderOptions : List GlobalOption :=
  [⟨.logLevel, "debug", false, by decide, by decide, by decide⟩,
    ⟨.config, "cfg.toml", true, by decide, by decide, by decide⟩]

theorem read_barePaths_order :
    (orderOptions.map (·.setting)).Nodup ∧ AreBare ["Order.java", "help"] ∧
    (∀ path ∈ ["Order.java", "help"], IsUndashed path) ∧
    read ["--log-level", "debug", "--config=cfg.toml", "Order.java", "help"] =
      .ok ⟨.classDiagram, ["Order.java", "help"], none, some "cfg.toml", some "debug"⟩ := by
  have once : (orderOptions.map (·.setting)).Nodup := by decide
  have bare : AreBare ["Order.java", "help"] := ⟨by decide, "Order.java", rfl, by decide⟩
  have undashed : ∀ path ∈ ["Order.java", "help"], IsUndashed path := by decide
  exact ⟨once, bare, undashed, (read_barePaths once bare).1 undashed⟩

/-- The class command is not what bare paths behind a separator mean. -/
theorem not_class_behind_separator :
    ¬ ∀ (options : List GlobalOption) (paths : List String),
      (options.map (·.setting)).Nodup → AreBare paths →
        ((∀ path ∈ paths, IsUndashed path) →
          read (options.flatMap (·.words) ++ paths) = .ok (classInvocation options paths)) ∧
        read (options.flatMap (·.words) ++ "--" :: paths) =
          .ok (classInvocation options paths) := by
  intro accepted
  have bare : AreBare ["A.java"] := ⟨by decide, "A.java", rfl, by decide⟩
  have refused : read ["--", "A.java"] = .error .misuse := rfl
  have read_ok := (accepted [] ["A.java"] List.nodup_nil bare).2
  rw [List.flatMap_nil, List.nil_append, refused] at read_ok
  cases read_ok

end JavaDiagram.CommandLine
