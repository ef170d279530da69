import JavaDiagram.Files.FileSystem
import JavaDiagram.Proofs.LineFeeds

/-!
# Writing to file trees

A path is followed name by name, and the places on its way can be told without the tree. Creating
directories adds those on the way that are absent, and changes nothing else; writing a file changes
what stands at the end of its path. So a written file leaves all that stood in the tree, except for
a file that it replaces, and adds only directories above itself.
-/

namespace JavaDiagram

/-! ### The way of a path -/

/-- Where a piece of a path leads from a place. -/
def Place.enter (place : Place) (piece : String) : Place :=
  if piece = "" ∨ piece = "." then place
  else if piece = ".." then place.dropLast
  else place ++ [piece]

theorem Place.enter_idle {piece : String} (idle : piece = "" ∨ piece = ".") (place : Place) :
    place.enter piece = place :=
  if_pos idle

theorem Place.enter_name {piece : String} (noIdle : ¬ (piece = "" ∨ piece = "."))
    (noParent : piece ≠ "..") (place : Place) : place.enter piece = place ++ [piece] := by
  rw [enter, if_neg noIdle, if_neg noParent]

namespace FileSystem

/-- The places that a path leads through, its end included. -/
def way (files : FileSystem) (path : String) : List Place :=
  (Text.pieces '/' path).scanl Place.enter (files.startOf path)

/-- The place at the end of a path. -/
def endOf (files : FileSystem) (path : String) : Place :=
  (Text.pieces '/' path).foldl Place.enter (files.startOf path)

/-! ### Puts and look-ups -/

theorem lookup_filter_ne {place other : Place} (apart : other ≠ place)
    (entries : List (Place × FileEntry)) :
    (entries.filter (·.1 != place)).lookup other = entries.lookup other := by
  induction entries with
  | nil => rfl
  | cons first rest ih =>
    obtain ⟨key, entry⟩ := first
    by_cases same : key = place
    · have front : (other == key) = false := beq_eq_false_iff_ne.mpr (same ▸ apart)
      rw [List.filter_cons_of_neg (by simp [same]), ih, List.lookup_cons, front]
    · rw [List.filter_cons_of_pos (by simp [same]), List.lookup_cons, List.lookup_cons, ih]

theorem entryAt?_put_self (files : FileSystem) {place : Place} (below : place ≠ [])
    (entry : FileEntry) : (files.put place entry).entryAt? place = some entry := by
  simp [entryAt?, put, below]

theorem entryAt?_put_of_ne (files : FileSystem) {place other : Place} (apart : other ≠ place)
    (entry : FileEntry) : (files.put place entry).entryAt? other = files.entryAt? other := by
  have front : (other == place) = false := beq_eq_false_iff_ne.mpr apart
  simp only [entryAt?, put, List.lookup_cons, front, lookup_filter_ne apart]

theorem below_root {files : FileSystem} {place : Place}
    (noDirectory : files.entryAt? place ≠ some .directory) : place ≠ [] := by
  rintro rfl
  exact noDirectory rfl

/-! ### Creating directories -/

/-- Nothing but directories is new in a tree, at some of the places given. -/
structure OnlyCreates (places : List Place) (before after : FileSystem) : Prop where
  workingDirectory : after.workingDirectory = before.workingDirectory
  entries : ∀ place, after.entryAt? place = before.entryAt? place ∨
    place ∈ places ∧ before.entryAt? place = none ∧ after.entryAt? place = some .directory

namespace OnlyCreates

variable {places more : List Place} {before middle after : FileSystem}

theorem refl (places : List Place) (files : FileSystem) : OnlyCreates places files files :=
  ⟨rfl, fun _ => Or.inl rfl⟩

theorem mono (created : OnlyCreates places before after) (inside : places ⊆ more) :
    OnlyCreates more before after := by
  refine ⟨created.workingDirectory, fun place => ?_⟩
  rcases created.entries place with same | ⟨listed, absent, present⟩
  · exact Or.inl same
  · exact Or.inr ⟨inside listed, absent, present⟩

theorem trans (first : OnlyCreates places before middle)
    (second : OnlyCreates places middle after) : OnlyCreates places before after := by
  refine ⟨second.workingDirectory.trans first.workingDirectory, fun place => ?_⟩
  rcases second.entries place with same | ⟨listed, absent, present⟩
  · rw [same]
    exact first.entries place
  · rcases first.entries place with same | ⟨_, _, present'⟩
    · exact Or.inr ⟨listed, same ▸ absent, present⟩
    · rw [present'] at absent
      cases absent

theorem put {place : Place} (listed : place ∈ places) (absent : before.entryAt? place = none) :
    OnlyCreates places before (before.put place .directory) := by
  refine ⟨rfl, fun other => ?_⟩
  by_cases same : other = place
  · subst same
    have below : other ≠ [] := by
      rintro rfl
      cases absent
    exact Or.inr ⟨listed, absent, before.entryAt?_put_self below _⟩
  · exact Or.inl (before.entryAt?_put_of_ne same _)

end OnlyCreates

/-- The tree that an attempt leaves, whether or not it failed. -/
def leftBy {Cause : Type} : Except (Cause × FileSystem) FileSystem → FileSystem
  | .ok files => files
  | .error (_, files) => files

/-- The places on the way from the second piece on are on the way. -/
theorem scanl_enter_subset (place : Place) (piece : String) (rest : List String) :
    rest.scanl Place.enter (place.enter piece) ⊆ (piece :: rest).scanl Place.enter place := by
  rw [List.scanl_cons]
  exact List.subset_cons_self _ _

theorem mem_scanl_enter_self (place : Place) (pieces : List String) :
    place ∈ pieces.scanl Place.enter place :=
  List.mem_of_head? List.head?_scanl

theorem createFrom_onlyCreates (place : Place) (pieces : List String) (files : FileSystem) :
    OnlyCreates (pieces.scanl Place.enter place) files
      (leftBy (createFrom place pieces files)) := by
  fun_induction createFrom place pieces files with
  | case1 place files => exact .refl _ files
  | case2 place piece rest files idle ih =>
    have later := scanl_enter_subset place piece rest
    rw [Place.enter_idle idle] at later
    exact ih.mono later
  | case3 place rest files noIdle ih => exact ih.mono (scanl_enter_subset place ".." rest)
  | case4 place piece rest files => exact .refl _ files
  | case5 place piece rest files noIdle noParent _ next _ ih =>
    have later := scanl_enter_subset place piece rest
    rw [Place.enter_name noIdle noParent] at later
    exact ih.mono later
  | case6 place piece rest files => exact .refl _ files
  | case7 place piece rest files noIdle noParent _ next absent ih =>
    have later := scanl_enter_subset place piece rest
    rw [Place.enter_name noIdle noParent] at later
    exact (OnlyCreates.put (later (mem_scanl_enter_self next rest)) absent).trans (ih.mono later)

theorem createDirectories_onlyCreates (files : FileSystem) (path : String) :
    OnlyCreates (files.way path) files (leftBy (files.createDirectories path)) := by
  unfold createDirectories
  split
  · exact .refl _ files
  · exact createFrom_onlyCreates _ _ files

/-! ### Writing a file -/

theorem follow_eq_foldl {files : FileSystem} {start place : Place} {pieces : List String}
    (reached : files.follow start pieces = .ok place) : place = pieces.foldl Place.enter start := by
  fun_induction follow files start pieces with
  | case1 start => exact (Except.ok.inj reached).symm
  | case2 => cases reached
  | case3 start piece rest _ idle ih =>
    rw [List.foldl_cons, Place.enter_idle idle]
    exact ih reached
  | case4 start rest _ _ ih => exact ih reached
  | case5 => cases reached
  | case6 start piece rest _ noIdle noParent _ ih =>
    rw [List.foldl_cons, Place.enter_name noIdle noParent]
    exact ih reached
  | case7 => cases reached

/-- A path leads where it led before if what changes is no directory on its way. -/
theorem follow_put {files : FileSystem} {start end_ changed : Place} {pieces : List String}
    (noDirectory : files.entryAt? changed ≠ some .directory) (entry : FileEntry)
    (reached : files.follow start pieces = .ok end_) :
    (files.put changed entry).follow start pieces = .ok end_ := by
  -- The way goes through directories alone, and these stay.
  have kept {place : Place} (directory : files.entryAt? place = some .directory) :
      (files.put changed entry).entryAt? place = some .directory := by
    rw [files.entryAt?_put_of_ne, directory]
    rintro rfl
    exact noDirectory directory
  fun_induction follow files start pieces with
  | case1 start => exact reached
  | case2 => cases reached
  | case3 start piece rest directory idle ih =>
    rw [follow, kept directory]
    exact (if_pos idle).trans (ih reached)
  | case4 start rest directory noIdle ih =>
    rw [follow, kept directory]
    exact ih reached
  | case5 => cases reached
  | case6 start piece rest directory noIdle noParent short ih =>
    rw [follow, kept directory]
    simp only [if_neg noIdle, if_neg noParent, if_neg short]
    exact ih reached
  | case7 => cases reached

theorem writeFile_ok {files after : FileSystem} {path : String} {content : List UInt8}
    (written : files.writeFile path content = .ok after) :
    ∃ place, files.placeOf path = .ok place ∧ files.entryAt? place ≠ some .directory ∧
      after = files.put place (.file content) := by
  cases placed : files.placeOf path with
  | error cause => simp [writeFile, placed, bind, Except.bind] at written
  | ok place =>
    simp only [writeFile, placed, bind, Except.bind] at written
    split at written
    next => cases written
    next => cases written
    next noDirectory _ =>
      exact ⟨place, rfl, noDirectory, (Except.ok.inj written).symm⟩
    next => cases written
    next => cases written

end FileSystem

/-! ### The directory of a path -/

namespace Text

/-- Pieces that are joined by a separator that none of them holds are read back. -/
theorem pieces_intercalate {separator : Char} {parts : List String} (some_part : parts ≠ [])
    (whole : ∀ part ∈ parts, separator ∉ part.toList) :
    pieces separator (String.intercalate (String.singleton separator) parts) = parts := by
  induction parts with
  | nil => exact absurd rfl some_part
  | cons part rest ih =>
    cases rest with
    | nil =>
      rw [pieces, String.intercalate_singleton, splitOn_of_not_mem (whole part List.mem_cons_self)]
      simp
    | cons next more =>
      have later := ih (List.cons_ne_nil next more) fun part listed =>
        whole part (List.mem_cons_of_mem _ listed)
      rw [pieces] at later
      rw [pieces, String.intercalate_cons_cons]
      simp only [String.toList_append, String.toList_singleton, List.append_assoc,
        List.singleton_append, splitOn_append_cons (whole part List.mem_cons_self), List.map_cons,
        String.ofList_toList, later]

end Text

namespace Path

/-- The directory of a path is a front part of it, or the root. -/
theorem parentText_eq_some {path parent : String} (held : parentText path = some parent)
    (filled : parent ≠ "") :
    (∃ front, front ≠ [] ∧ front <+: Text.pieces '/' path ∧ parent = "/".intercalate front) ∨
      (Text.pieces '/' path).head? = some "" ∧ parent = "/" := by
  unfold parentText at held
  split at held
  next => cases held
  next first rest cut =>
    rw [cut]
    split at held
    next name before ends =>
      -- The pieces are read from the back, so what is left of them is a front part.
      have front : (before.dropWhile isIdle).reverse <+: rest := by
        rw [← List.reverse_suffix, List.reverse_reverse]
        apply (List.dropWhile_suffix _).trans
        exact (List.suffix_cons name before).trans (ends ▸ List.dropWhile_suffix _)
      simp only at held
      split at held
      next alone =>
        have root : first = "" := by
          simp_all
        exact Or.inr ⟨congrArg some root, (Option.some.inj held).symm⟩
      next =>
        exact Or.inl ⟨_, List.cons_ne_nil _ _, List.cons_prefix_cons.mpr ⟨rfl, front⟩,
          (Option.some.inj held).symm⟩
    next =>
      split at held
      next => cases held
      next => exact absurd (Option.some.inj held).symm filled

end Path

namespace FileSystem

/-- The way to the directory of a path is a part of the way of the path. -/
theorem way_parentText_subset (files : FileSystem) {path parent : String}
    (held : Path.parentText path = some parent) (filled : parent ≠ "") :
    files.way parent ⊆ files.way path := by
  rcases Path.parentText_eq_some held filled with
    ⟨front, some_piece, ⟨back, cut⟩, rfl⟩ | ⟨root, rfl⟩
  · -- The joined pieces are cut into the same pieces again.
    have whole : ∀ piece ∈ front, '/' ∉ piece.toList := by
      intro piece listed
      have inPath : piece ∈ Text.pieces '/' path := cut ▸ List.mem_append_left back listed
      obtain ⟨chars, cutOff, rfl⟩ := List.mem_map.mp inPath
      rw [String.toList_ofList]
      exact Text.not_mem_of_mem_splitOn cutOff
    have parts : Text.pieces '/' ("/".intercalate front) = front :=
      Text.pieces_intercalate some_piece whole
    have start : files.startOf ("/".intercalate front) = files.startOf path := by
      rw [startOf, startOf, parts, ← cut, List.head?_append_of_ne_nil front some_piece]
    rw [way, way, parts, start, ← cut, List.scanl_append]
    exact List.subset_append_left _ _
  · have start : files.startOf path = [] := by
      simp [startOf, root]
    have way_root : files.way "/" = [[], [], []] := rfl
    have first : [] ∈ files.way path := start ▸ mem_scanl_enter_self _ _
    simpa [way_root] using first

/-! ### A file with its directories -/

/-- A file is written to a path: the path leads to its content, directories that were absent are
there on its way, and what stands elsewhere stood there before. -/
structure IsWritten (path : String) (content : List UInt8) (before after : FileSystem) : Prop where
  workingDirectory : after.workingDirectory = before.workingDirectory
  content : after.contentAt path = .ok content
  others : ∀ place, place ≠ before.endOf path →
    after.entryAt? place = before.entryAt? place ∨
      place ∈ before.way path ∧ before.entryAt? place = none ∧
        after.entryAt? place = some .directory

theorem startOf_congr {before after : FileSystem}
    (same : after.workingDirectory = before.workingDirectory) (path : String) :
    after.startOf path = before.startOf path := by
  rw [startOf, startOf, same]

theorem placeOf_put {files : FileSystem} {path : String} {place changed : Place}
    (noDirectory : files.entryAt? changed ≠ some .directory) (entry : FileEntry)
    (placed : files.placeOf path = .ok place) :
    (files.put changed entry).placeOf path = .ok place := by
  unfold placeOf at placed ⊢
  split_ifs at placed ⊢
  exact follow_put noDirectory entry placed

theorem contentAt_put {files : FileSystem} {path : String} {place : Place}
    (placed : files.placeOf path = .ok place) (noDirectory : files.entryAt? place ≠ some .directory)
    (content : List UInt8) : (files.put place (.file content)).contentAt path = .ok content := by
  have held := files.entryAt?_put_self (below_root noDirectory) (.file content)
  simp only [contentAt, find, placeOf_put noDirectory _ placed, bind, Except.bind, held]
  rfl

theorem endOf_eq {files : FileSystem} {path : String} {place : Place}
    (placed : files.placeOf path = .ok place) : place = files.endOf path := by
  unfold placeOf at placed
  split_ifs at placed
  exact follow_eq_foldl placed

/-- Directories first, then the file. -/
theorem isWritten_of_writeFile {before prepared after : FileSystem} {path : String}
    {content : List UInt8} (created : OnlyCreates (before.way path) before prepared)
    (written : prepared.writeFile path content = .ok after) :
    IsWritten path content before after := by
  obtain ⟨place, placed, noDirectory, rfl⟩ := writeFile_ok written
  refine ⟨created.workingDirectory, contentAt_put placed noDirectory content, fun other apart => ?_⟩
  have same_end : place = before.endOf path := by
    rw [endOf_eq placed, endOf, endOf, startOf_congr created.workingDirectory]
  rw [prepared.entryAt?_put_of_ne (same_end ▸ apart)]
  exact created.entries other

end FileSystem

end JavaDiagram
