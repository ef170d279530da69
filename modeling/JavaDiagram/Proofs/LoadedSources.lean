import Mathlib.Data.List.Forall2
import JavaDiagram.Proofs.KeptUnits

/-!
# Loaded sources

What two lists of paths stand for together is what the first stands for and, behind it, what the
second stands for, less the contents that came up before. Loading breaks off at the first path that
fails, so nothing behind a failure matters. Whether loading succeeds, and with which units, does not
depend on the schedule. Which failure is reported does if several files of one directory cannot be
read, and only then.
-/

namespace JavaDiagram

/-! ### Failures -/

section

variable {α : Type} {results : List (Except SourceError α)}

theorem mem_failuresOf {cause : SourceError} :
    cause ∈ failuresOf results ↔ .error cause ∈ results := by
  rw [failuresOf, List.mem_filterMap]
  constructor
  · rintro ⟨other | value, listed, failed⟩
    · cases failed
      exact listed
    · cases failed
  · exact fun listed => ⟨.error cause, listed, rfl⟩

/-- Results without a failure among them are their values. -/
theorem map_ok_toOption (none_failed : failuresOf results = []) :
    (results.filterMap (·.toOption)).map .ok = results := by
  induction results with
  | nil => rfl
  | cons result rest ih =>
    cases result with
    | error cause => cases none_failed
    | ok value => exact congrArg (Except.ok value :: ·) (ih none_failed)

namespace Schedule

theorem collect_eq_ok_iff {schedule : Schedule} {values : List α} :
    schedule.collect results = .ok values ↔ results = values.map .ok := by
  constructor
  · intro collected
    unfold collect at collected
    split at collected
    next none_failed =>
      cases collected
      exact (map_ok_toOption none_failed).symm
    next => cases collected
  · rintro rfl
    simp [collect, failuresOf, Except.toOption]

theorem collect_eq_error {schedule : Schedule} {cause : SourceError}
    (collected : schedule.collect results = .error cause) : cause ∈ failuresOf results := by
  unfold collect at collected
  split at collected
  next => cases collected
  next first others failed =>
    cases collected
    rw [failed]
    exact schedule.isOne first others

/-- The schedule that reports one failure wherever it occurs. -/
def favouring (cause : SourceError) : Schedule where
  reported first others := if cause ∈ first :: others then cause else first
  isOne first others := by
    split
    next listed => exact listed
    next => exact List.mem_cons_self

theorem collect_favouring {cause : SourceError} (failed : cause ∈ failuresOf results) :
    (favouring cause).collect results = .error cause := by
  unfold collect
  split
  next none_failed => exact absurd failed (none_failed ▸ List.not_mem_nil)
  next first others some_failed =>
    rw [some_failed] at failed
    exact congrArg Except.error (if_pos failed)

end Schedule

end

/-! ### Loading -/

section

variable {α β Cause : Type} {f : α → Except Cause β} {items : List α}

/-- What holds of everything that an item may stand for holds of all that the items stand for. -/
theorem forall_of_forall₂ {relates : α → β → Prop} {results : List β} {holds : β → Prop}
    (pairs : List.Forall₂ relates items results)
    (each : ∀ item result, relates item result → holds result) :
    ∀ result ∈ results, holds result := by
  have told := pairs.flip.imp fun result item related =>
    And.intro (each item result related) related
  exact ((List.forall₂_and_left _ _).mp told).1

theorem mapM_eq_ok_iff {results : List β} :
    items.mapM f = .ok results ↔
      List.Forall₂ (fun item result => f item = .ok result) items results := by
  induction items generalizing results with
  | nil => cases results <;> simp [pure, Except.pure]
  | cons item rest ih =>
    rw [List.mapM_cons, List.forall₂_cons_left_iff]
    simp only [← ih]
    cases f item with
    | error cause => simp [bind, Except.bind]
    | ok result =>
      cases rest.mapM f with
      | error cause => simp [bind, Except.bind]
      | ok more => simp [bind, Except.bind, pure, Except.pure, eq_comm]

/-- The first failure is the failure of the whole. -/
theorem mapM_eq_error_iff {cause : Cause} :
    items.mapM f = .error cause ↔ ∃ front item back, items = front ++ item :: back ∧
      (∀ other ∈ front, ∃ result, f other = .ok result) ∧ f item = .error cause := by
  induction items with
  | nil => simp [pure, Except.pure]
  | cons item rest ih =>
    rw [List.mapM_cons]
    cases first : f item with
    | error other =>
      constructor
      · rintro ⟨⟩
        exact ⟨[], item, rest, rfl, by simp, first⟩
      · rintro ⟨front, failing, back, split, before, failed⟩
        cases front with
        | nil =>
          obtain ⟨rfl, rfl⟩ := List.cons.inj split
          cases first.symm.trans failed
          rfl
        | cons head front =>
          obtain ⟨rfl, rfl⟩ := List.cons.inj split
          obtain ⟨result, made⟩ := before item List.mem_cons_self
          cases first.symm.trans made
    | ok result =>
      have later : (do let more ← rest.mapM f; return result :: more) = .error cause ↔
          rest.mapM f = .error cause := by
        cases rest.mapM f <;> simp [bind, Except.bind, pure, Except.pure]
      refine later.trans (ih.trans ⟨?_, ?_⟩)
      · rintro ⟨front, failing, back, rfl, before, failed⟩
        refine ⟨item :: front, failing, back, rfl, ?_, failed⟩
        exact List.forall_mem_cons.mpr ⟨⟨result, first⟩, before⟩
      · rintro ⟨front, failing, back, split, before, failed⟩
        cases front with
        | nil =>
          obtain ⟨rfl, rfl⟩ := List.cons.inj split
          cases first.symm.trans failed
        | cons head front =>
          obtain ⟨rfl, rfl⟩ := List.cons.inj split
          exact ⟨front, failing, back, rfl, (List.forall_mem_cons.mp before).2, failed⟩

end

namespace FileSystem

variable {files : FileSystem} {path : String} {schedule : Schedule}

/-- Whether a source in a directory cannot be read, with a cause. -/
def HasFailure (files : FileSystem) (path : String) (cause : SourceError) : Prop :=
  ∃ file ∈ files.javaFiles path, files.readSource file = .error cause

/-- Whether loading a path fails with a cause under some schedule. -/
def CanFail (files : FileSystem) (path : String) (cause : SourceError) : Prop :=
  if files.isDirectory path then files.HasFailure path cause
  else files.loadPath path = .error cause

/-- Whether two errors are equal, or are failures of sources in one directory. -/
inductive SameFailure (files : FileSystem) : LoadError → LoadError → Prop where
  | refl (error : LoadError) : SameFailure files error error
  | inDirectory (path : String) (cause other : SourceError)
      (directory : files.isDirectory path = true) (failed : files.HasFailure path cause)
      (failed' : files.HasFailure path other) : SameFailure files ⟨path, cause⟩ ⟨path, other⟩

/-- Whether an error can be that of the first path that cannot be loaded. -/
def IsFirstFailure (files : FileSystem) (paths : List String) (error : LoadError) : Prop :=
  ∃ front back, paths = front ++ error.path :: back ∧
    (∀ other ∈ front, ∃ part, files.loadPath other = .ok part) ∧
    files.CanFail error.path error.cause

theorem hasFailure_iff {cause : SourceError} :
    files.HasFailure path cause ↔
      cause ∈ failuresOf ((files.javaFiles path).map files.readSource) := by
  rw [mem_failuresOf, List.mem_map, HasFailure]

theorem loadPath_of_isDirectory (directory : files.isDirectory path = true) :
    files.loadPath path schedule =
      schedule.collect ((files.javaFiles path).map files.readSource) :=
  if_pos directory

/-- Only directories are read to a schedule. -/
theorem loadPath_of_not_isDirectory (single : ¬ files.isDirectory path = true) :
    files.loadPath path schedule = files.loadPath path := by
  rw [loadPath, loadPath, if_neg single, if_neg single]

theorem loadPath_eq_ok_iff (schedule : Schedule) {part : List SourceUnit} :
    files.loadPath path schedule = .ok part ↔ files.loadPath path = .ok part := by
  by_cases directory : files.isDirectory path = true
  · rw [loadPath_of_isDirectory directory, loadPath_of_isDirectory directory,
      Schedule.collect_eq_ok_iff, Schedule.collect_eq_ok_iff]
  · rw [loadPath_of_not_isDirectory directory]

theorem canFail_of_loadPath {cause : SourceError}
    (failed : files.loadPath path schedule = .error cause) : files.CanFail path cause := by
  rw [CanFail]
  split
  next directory =>
    rw [loadPath_of_isDirectory directory] at failed
    exact hasFailure_iff.mpr (Schedule.collect_eq_error failed)
  next single => exact (loadPath_of_not_isDirectory single).symm.trans failed

theorem CanFail.exists_schedule {cause : SourceError} (can_fail : files.CanFail path cause) :
    ∃ schedule, files.loadPath path schedule = .error cause := by
  rw [CanFail] at can_fail
  split at can_fail
  next directory =>
    exact ⟨.favouring cause, (loadPath_of_isDirectory directory).trans
      (Schedule.collect_favouring (hasFailure_iff.mp can_fail))⟩
  next => exact ⟨.inOrder, can_fail⟩

/-- Two failures of one path are the same, unless the path is a directory. -/
theorem CanFail.same {cause other : SourceError} (can_fail : files.CanFail path cause)
    (can_fail' : files.CanFail path other) :
    files.SameFailure ⟨path, cause⟩ ⟨path, other⟩ := by
  rw [CanFail] at can_fail can_fail'
  split at can_fail
  next directory =>
    rw [if_pos directory] at can_fail'
    exact .inDirectory path cause other directory can_fail can_fail'
  next single =>
    rw [if_neg single] at can_fail'
    cases can_fail.symm.trans can_fail'
    exact .refl _

theorem loadNamed_eq_ok_iff (schedule : Schedule) {part : List SourceUnit} :
    files.loadNamed schedule path = .ok part ↔ files.loadPath path = .ok part := by
  rw [← loadPath_eq_ok_iff schedule, loadNamed]
  cases files.loadPath path schedule <;> simp [Except.mapError]

theorem loadNamed_eq_error_iff {error : LoadError} :
    files.loadNamed schedule path = .error error ↔
      path = error.path ∧ files.loadPath path schedule = .error error.cause := by
  obtain ⟨named, cause⟩ := error
  rw [loadNamed]
  cases files.loadPath path schedule <;> simp [Except.mapError]

theorem contentHash_of_readSource {unit : SourceUnit} (read : files.readSource path = .ok unit) :
    unit.contentHash = Sha256.hexDigest unit.text := by
  unfold readSource at read
  split at read <;> cases read
  rfl

/-- A unit is told from others by the digest of its text. -/
theorem contentHash_of_loadPath {part : List SourceUnit} (loaded : files.loadPath path = .ok part) :
    ∀ unit ∈ part, unit.contentHash = Sha256.hexDigest unit.text := by
  unfold loadPath at loaded
  split_ifs at loaded
  · intro unit listed
    have read : .ok unit ∈ (files.javaFiles path).map files.readSource := by
      rw [Schedule.collect_eq_ok_iff.mp loaded]
      exact List.mem_map_of_mem listed
    obtain ⟨file, _, read⟩ := List.mem_map.mp read
    exact contentHash_of_readSource read
  · cases found : files.archiveEntries path with
    | error cause => simp [found, bind, Except.bind] at loaded
    | ok entries =>
      simp only [found, bind, Except.bind, pure, Except.pure, Except.ok.injEq] at loaded
      subst loaded
      exact List.forall_mem_map.mpr fun _ _ => rfl
  · cases read : files.readSource path with
    | error cause => simp [read, bind, Except.bind] at loaded
    | ok unit =>
      simp only [read, bind, Except.bind, pure, Except.pure, Except.ok.injEq] at loaded
      subst loaded
      exact List.forall_mem_singleton.mpr (contentHash_of_readSource read)

/-- Loading two lists is loading one and then the other. -/
theorem load_append (ps qs : List String) :
    files.load (ps ++ qs) schedule = do
      let units ← files.load ps schedule
      let more ← files.load qs schedule
      return units ++ more.filter (·.contentHash ∉ units.map (·.contentHash)) := by
  rw [load, load, load, List.mapM_append]
  cases ps.mapM (files.loadNamed schedule) with
  | error error => rfl
  | ok parts =>
    cases qs.mapM (files.loadNamed schedule) with
    | error error => rfl
    | ok more =>
      simp only [bind, Except.bind, pure, Except.pure, List.flatten_append, dedupUnits_append]

theorem load_eq_ok_iff {paths : List String} {units : List SourceUnit} :
    files.load paths schedule = .ok units ↔ ∃ parts,
      List.Forall₂ (fun path part => files.loadPath path = .ok part) paths parts ∧
        units = dedupUnits parts.flatten := by
  simp only [← loadNamed_eq_ok_iff schedule, ← mapM_eq_ok_iff]
  rw [load]
  cases paths.mapM (files.loadNamed schedule) <;>
    simp [bind, Except.bind, pure, Except.pure, eq_comm]

theorem load_eq_error_iff {paths : List String} {error : LoadError} :
    files.load paths schedule = .error error ↔
      ∃ front back, paths = front ++ error.path :: back ∧
        (∀ other ∈ front, ∃ part, files.loadPath other = .ok part) ∧
        files.loadPath error.path schedule = .error error.cause := by
  have made : files.load paths schedule = .error error ↔
      paths.mapM (files.loadNamed schedule) = .error error := by
    rw [load]
    cases paths.mapM (files.loadNamed schedule) <;> simp [bind, Except.bind, pure, Except.pure]
  rw [made, mapM_eq_error_iff]
  simp only [loadNamed_eq_error_iff, loadNamed_eq_ok_iff]
  constructor
  · rintro ⟨front, _, back, rfl, before, rfl, failed⟩
    exact ⟨front, back, rfl, before, failed⟩
  · rintro ⟨front, back, rfl, before, failed⟩
    exact ⟨front, _, back, rfl, before, rfl, failed⟩

theorem exists_load_error_iff {paths : List String} {error : LoadError} :
    (∃ schedule, files.load paths schedule = .error error) ↔
      files.IsFirstFailure paths error := by
  simp only [load_eq_error_iff]
  constructor
  · rintro ⟨schedule, front, back, split, before, failed⟩
    exact ⟨front, back, split, before, canFail_of_loadPath failed⟩
  · rintro ⟨front, back, split, before, can_fail⟩
    obtain ⟨schedule, failed⟩ := can_fail.exists_schedule
    exact ⟨schedule, front, back, split, before, failed⟩

/-- The schedule decides only which failure of a directory is reported. -/
theorem load_error_of_schedule {paths : List String} {error : LoadError} (other : Schedule)
    (failed : files.load paths schedule = .error error) :
    ∃ error', files.load paths other = .error error' ∧ files.SameFailure error error' := by
  obtain ⟨front, back, split, before, failed⟩ := load_eq_error_iff.mp failed
  cases failed' : files.loadPath error.path other with
  | ok part =>
    cases failed.symm.trans ((loadPath_eq_ok_iff schedule).mpr
      ((loadPath_eq_ok_iff other).mp failed'))
  | error cause =>
    refine ⟨⟨error.path, cause⟩, load_eq_error_iff.mpr ⟨front, back, split, before, failed'⟩, ?_⟩
    exact (canFail_of_loadPath failed).same (canFail_of_loadPath failed')

/-- Two lists of paths load as one list does, with the failure of the first path that fails, or with
the units of the first list and those units of the second whose content is new. In runs under other
schedules units are the same, and so is a failure, unless it is one of several in a directory. What
is loaded keeps the first unit of each content hash, and of each text if no two of the texts have
the same digest. -/
theorem load_composes (files : FileSystem) :
    (∀ schedule ps qs error, files.load ps schedule = .error error →
      files.load (ps ++ qs) schedule = .error error ∧
        ∀ other, ∃ error', files.load (ps ++ qs) other = .error error' ∧
          files.SameFailure error error') ∧
    (∀ first second ps qs units error, files.load ps first = .ok units →
      files.load qs second = .error error →
        files.load (ps ++ qs) second = .error error ∧
          ∀ other, ∃ error', files.load (ps ++ qs) other = .error error' ∧
            files.SameFailure error error') ∧
    (∀ first second ps qs units more, files.load ps first = .ok units →
      files.load qs second = .ok more → ∀ other, files.load (ps ++ qs) other =
        .ok (units ++ more.filter (·.contentHash ∉ units.map (·.contentHash)))) ∧
    (∀ ps error, (∃ schedule, files.load ps schedule = .error error) ↔
      files.IsFirstFailure ps error) ∧
    ∀ schedule ps units, files.load ps schedule = .ok units → ∃ parts,
      List.Forall₂ (fun path part => files.loadPath path = .ok part) ps parts ∧
        KeepsFirst (·.contentHash) parts.flatten units ∧
        ((∀ unit ∈ parts.flatten, ∀ other ∈ parts.flatten,
          Sha256.hexDigest unit.text = Sha256.hexDigest other.text → unit.text = other.text) →
            KeepsFirst (·.text) parts.flatten units) := by
  have unscheduled {first second : Schedule} {ps : List String} {units : List SourceUnit}
      (loaded : files.load ps first = .ok units) : files.load ps second = .ok units :=
    load_eq_ok_iff.mpr (load_eq_ok_iff.mp loaded)
  refine ⟨?_, ?_, ?_, fun ps error => exists_load_error_iff, ?_⟩
  · intro schedule ps qs error failed
    have fails : files.load (ps ++ qs) schedule = .error error := by
      rw [load_append, failed]
      rfl
    exact ⟨fails, fun other => load_error_of_schedule other fails⟩
  · intro first second ps qs units error loaded failed
    have fails : files.load (ps ++ qs) second = .error error := by
      rw [load_append, unscheduled loaded, failed]
      rfl
    exact ⟨fails, fun other => load_error_of_schedule other fails⟩
  · intro first second ps qs units more loaded loaded' other
    rw [load_append, unscheduled loaded, unscheduled loaded']
    rfl
  · intro schedule ps units loaded
    obtain ⟨parts, each, rfl⟩ := load_eq_ok_iff.mp loaded
    have keeps := keepsFirst_dedupUnits parts.flatten
    refine ⟨parts, each, keeps, fun no_collision => keeps.of_key ?_⟩
    intro unit listed other listed'
    have hashed : ∀ unit ∈ parts.flatten, unit.contentHash = Sha256.hexDigest unit.text :=
      List.forall_mem_flatten.mpr (forall_of_forall₂ each fun _ _ => contentHash_of_loadPath)
    rw [hashed unit listed, hashed other listed']
    exact ⟨no_collision unit listed other listed', congrArg Sha256.hexDigest⟩

/-- A directory with a class, and one with a copy of it. -/
def tones : FileSystem where
  workingDirectory := ["work"]
  entries :=
    [(["work"], .directory), (["work", "a"], .directory), (["work", "b"], .directory),
      (["work", "a", "Tone.java"], .file "class Tone { }".toUTF8.toList),
      (["work", "b", "Tone.java"], .file "class Tone { }".toUTF8.toList)]

theorem tones_composes :
    (∃ units more, tones.load ["a"] = .ok units ∧ tones.load ["b"] = .ok more ∧
      tones.load ["a", "b"] =
        .ok (units ++ more.filter (·.contentHash ∉ units.map (·.contentHash)))) ∧
    tones.load ["a", "c", "b"] = .error ⟨"c", .file "c" .notFound⟩ ∧
    tones.load ["c", "b", "a"] = .error ⟨"c", .file "c" .notFound⟩ := by
  have loads : ∀ path ∈ ["a", "b"], ∃ units, tones.load [path] = .ok units := by
    have each : ∀ path ∈ ["a", "b"], (tones.load [path]).isOk = true := by decide +kernel
    intro path listed
    have loaded := each path listed
    cases read : tones.load [path] with
    | error error => rw [read] at loaded; cases loaded
    | ok units => exact ⟨units, rfl⟩
  have failed : tones.load ["c", "b"] = .error ⟨"c", .file "c" .notFound⟩ := by
    decide +kernel
  obtain ⟨units, front⟩ := loads "a" (by simp)
  obtain ⟨more, back⟩ := loads "b" (by simp)
  obtain ⟨fails, fails_behind, succeeds, _⟩ := load_composes tones
  exact ⟨⟨units, more, front, back,
      succeeds .inOrder .inOrder ["a"] ["b"] units more front back .inOrder⟩,
    (fails_behind .inOrder .inOrder ["a"] ["c", "b"] units _ front failed).1,
    (fails .inOrder ["c", "b"] ["a"] _ failed).1⟩

/-- A directory with two sources that cannot be opened. -/
def lockedPair : FileSystem where
  workingDirectory := ["work"]
  entries :=
    [(["work"], .directory), (["work", "d"], .directory),
      (["work", "d", "A.java"], .locked .denied), (["work", "d", "Z.java"], .locked .denied)]

/-- Two runs over one directory can fail with different errors. -/
theorem lockedPair_fails_apart :
    ¬ ∀ first whole ps qs error, lockedPair.load ps first = .error error →
      lockedPair.load (ps ++ qs) whole = .error error := by
  intro same
  have directory : lockedPair.isDirectory "d" = true := by decide +kernel
  have found : lockedPair.find "d" = .ok (["work", "d"], .directory) := by decide +kernel
  have fails (name : String) (listed : name ∈ ["d/A.java", "d/Z.java"]) :
      lockedPair.loadPath "d" (.favouring (.file name .denied)) =
        .error (.file name .denied) := by
    rw [loadPath_of_isDirectory directory]
    apply Schedule.collect_favouring
    rw [← hasFailure_iff]
    refine ⟨name, ?_, ?_⟩
    · rw [javaFiles, found]
      dsimp only
      rw [List.mem_mergeSort]
      revert name
      decide +kernel
    · revert name
      decide +kernel
  have loads (name : String) (listed : name ∈ ["d/A.java", "d/Z.java"]) :
      lockedPair.load ["d"] (.favouring (.file name .denied)) =
        .error ⟨"d", .file name .denied⟩ :=
    load_eq_error_iff.mpr ⟨[], [], rfl, by simp, fails name listed⟩
  have first := loads "d/A.java" (by simp)
  have second := loads "d/Z.java" (by simp)
  have clash := (same _ (.favouring (.file "d/Z.java" .denied)) ["d"] [] _ first).symm.trans second
  simp at clash

end FileSystem

end JavaDiagram
