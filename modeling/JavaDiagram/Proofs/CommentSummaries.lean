import Mathlib.Data.List.DropRight
import JavaDiagram.Diagram.Comment
import JavaDiagram.Proofs.LineFeeds

/-!
# Summaries of documentation comments

Marks, blanks and empty lines are taken off from the ends of a text, so what is taken off never
reaches past something else. This keeps the two ends of a comment apart: no opening mark is taken
from behind its first line feed, and no closing mark from in front of a tag. A summary is read off
the lines in front of the first tag and is made of whole lines.
-/

namespace JavaDiagram

/-! ### Trimming -/

theorem subset_of_dropWhile {α : Type} (test : α → Bool) (items : List α) :
    (items.dropWhile test).rdropWhile test ⊆ items := by
  have front := List.rdropWhile_prefix test (items.dropWhile test)
  exact fun item listed => (List.dropWhile_sublist test).subset (front.subset listed)

/-- What is left when the items that pass a test are dropped at both ends fails it at both ends. -/
theorem ends_of_dropWhile {α : Type} (test : α → Bool) (items : List α) :
    (∀ item ∈ ((items.dropWhile test).rdropWhile test).head?, test item = false) ∧
      ∀ item ∈ ((items.dropWhile test).rdropWhile test).getLast?, test item = false := by
  constructor
  · intro item first
    -- Dropping at the end leaves the first item where it is, if it leaves one.
    obtain ⟨tail, same⟩ := List.rdropWhile_prefix test (items.dropWhile test)
    have front : (items.dropWhile test).head? = some item := by
      rw [← same, List.head?_append_of_ne_nil, Option.mem_def.mp first]
      rintro empty
      simp [empty] at first
    have fails := List.head?_dropWhile_not test items
    rw [front] at fails
    exact fails
  · intro item last
    obtain ⟨filled, rfl⟩ := List.mem_getLast?_eq_getLast last
    simpa using List.rdropWhile_last_not test (items.dropWhile test) filled

namespace Text

/-- Whether no blank stands at either end of a text. -/
def IsTrimmed (cs : List Char) : Prop :=
  (∀ c ∈ cs.head?, isBlank c = false) ∧ ∀ c ∈ cs.getLast?, isBlank c = false

theorem isTrimmed_trim (cs : List Char) : IsTrimmed (trim cs) :=
  ends_of_dropWhile isBlank cs

theorem trimStart_cons {c : Char} (visible : isBlank c = false) (rest : List Char) :
    trimStart (c :: rest) = c :: rest :=
  List.dropWhile_cons_of_neg (by simp [visible])

theorem trimEnd_append_cons {c : Char} (visible : isBlank c = false) (front back : List Char) :
    trimEnd (front ++ c :: back) = front ++ c :: trimEnd back := by
  unfold trimEnd
  rw [List.reverse_append, List.reverse_cons, List.dropWhile_append, List.dropWhile_append]
  split <;> simp_all

/-- A line feed ends the lines in front of it, and others start behind it. -/
theorem lines_append_cons (front back : List Char) :
    lines (front ++ '\n' :: back) = splitOn '\n' front ++ lines back := by
  have some_piece := splitOn_ne_nil '\n' back
  unfold lines
  dsimp only
  rw [splitOn_append_separator, List.getLast?_append_of_ne_nil _ some_piece,
    List.dropLast_append_of_ne_nil some_piece]
  split <;> rfl

/-- The first line of a text begins as the text does. -/
theorem exists_lines_append (word rest : List Char) (filled : word ≠ []) (single : '\n' ∉ word) :
    ∃ more others, lines (word ++ rest) = (word ++ more) :: others := by
  have cut : ∃ more others, splitOn '\n' (word ++ rest) = (word ++ more) :: others := by
    clear filled
    induction word with
    | nil => exact List.exists_cons_of_ne_nil (splitOn_ne_nil '\n' rest)
    | cons c word ih =>
      rw [List.mem_cons, not_or] at single
      obtain ⟨more, others, cut⟩ := ih single.2
      refine ⟨more, others, ?_⟩
      rw [List.cons_append, splitOn, if_neg (Ne.symm single.1), cut]
      rfl
  obtain ⟨more, others, cut⟩ := cut
  unfold lines
  dsimp only
  rw [cut]
  split
  next empty =>
    -- Only a line behind the first may be empty.
    cases others with
    | nil => simp [filled] at empty
    | cons other others => exact ⟨more, _, rfl⟩
  next => exact ⟨more, others, rfl⟩

/-- Lines that are joined are read back. -/
theorem splitOn_joinWith {separator : Char} {parts : List (List Char)} (some_part : parts ≠ [])
    (whole : ∀ part ∈ parts, separator ∉ part) :
    splitOn separator (joinWith [separator] parts) = parts := by
  induction parts with
  | nil => exact absurd rfl some_part
  | cons part rest ih =>
    cases rest with
    | nil => exact splitOn_of_not_mem (whole part (by simp))
    | cons next more =>
      rw [joinWith, List.append_assoc, List.singleton_append,
        splitOn_append_cons (whole part (by simp)),
        ih (by simp) fun other listed => whole other (by simp [listed])]
      simp

end Text

namespace Javadoc

/-! ### Marks -/

theorem dropDocMarks_append_cons {c : Char} (slash : c ≠ '/') (star : c ≠ '*')
    (front back : List Char) :
    dropDocMarks (front ++ c :: back) = dropDocMarks front ++ c :: back := by
  fun_induction dropDocMarks front with
  | case1 rest ih => simpa [dropDocMarks] using ih
  | case2 front unmarked =>
    -- A mark would have to lie in front of the character, which is none of its own.
    apply dropDocMarks.eq_2
    intro rest same
    rcases front with _ | ⟨a, _ | ⟨b, _ | ⟨d, front⟩⟩⟩ <;> simp_all

theorem dropOpenMarks_append_cons {c : Char} (slash : c ≠ '/') (star : c ≠ '*')
    (front back : List Char) :
    dropOpenMarks (front ++ c :: back) = dropOpenMarks front ++ c :: back := by
  fun_induction dropOpenMarks front with
  | case1 rest ih => simpa [dropOpenMarks] using ih
  | case2 front unmarked =>
    apply dropOpenMarks.eq_2
    intro rest same
    rcases front with _ | ⟨a, _ | ⟨b, front⟩⟩ <;> simp_all

/-- A closing mark read backwards is an opening mark. -/
theorem dropCloseMarks_eq (cs : List Char) :
    dropCloseMarks cs = (dropOpenMarks cs.reverse).reverse := by
  have same (cs : List Char) : dropCloseMarks.dropReversed cs = dropOpenMarks cs := by
    fun_induction dropOpenMarks cs with
    | case1 rest ih => rw [dropCloseMarks.dropReversed, ih]
    | case2 cs unmarked => exact dropCloseMarks.dropReversed.eq_2 cs unmarked
  rw [dropCloseMarks, same]

theorem dropCloseMarks_append_cons {c : Char} (slash : c ≠ '/') (star : c ≠ '*')
    (front back : List Char) :
    dropCloseMarks (front ++ c :: back) = front ++ c :: dropCloseMarks back := by
  have reversed : (front ++ c :: back).reverse = back.reverse ++ c :: front.reverse := by simp
  rw [dropCloseMarks_eq, reversed, dropOpenMarks_append_cons slash star, dropCloseMarks_eq]
  simp

/-- The marks at the two ends of a comment are taken off on their own sides of a line feed. -/
theorem inner_comment (front back : List Char) :
    inner ("/**".toList ++ front ++ '\n' :: (back ++ "*/".toList)) =
      dropOpenMarks (dropDocMarks ("/**".toList ++ front)) ++
        '\n' :: dropCloseMarks (back ++ "*/".toList) := by
  have slash : Text.isBlank '/' = false := by decide
  -- The comment starts and ends with a slash, so there is nothing to trim.
  have trimmed : Text.trim ("/**".toList ++ front ++ '\n' :: (back ++ "*/".toList)) =
      "/**".toList ++ front ++ '\n' :: (back ++ "*/".toList) := by
    have start : Text.trimStart ("/**".toList ++ front ++ '\n' :: (back ++ "*/".toList)) =
        ("/**".toList ++ front ++ '\n' :: (back ++ ['*'])) ++ ['/'] := by
      simpa using Text.trimStart_cons slash _
    rw [Text.trim, start, Text.trimEnd_append_cons slash]
    simp [Text.trimEnd]
  rw [inner, trimmed, dropDocMarks_append_cons (by decide) (by decide),
    dropOpenMarks_append_cons (by decide) (by decide),
    dropCloseMarks_append_cons (by decide) (by decide)]

/-! ### Tags -/

theorem isTag_cleanLine (more : List Char) : isTag (cleanLine (" * @".toList ++ more)) = true := by
  have blank : Text.isBlank ' ' = true := by decide
  have visible : Text.isBlank '@' = false ∧ Text.isBlank '*' = false := by decide
  have trimmed : Text.trim (" * @".toList ++ more) = "* ".toList ++ '@' :: Text.trimEnd more := by
    rw [← Text.trimEnd_append_cons visible.1]
    simp [Text.trim, Text.trimStart, blank, visible]
  rw [cleanLine, trimmed]
  have unstarred : ("* ".toList ++ '@' :: Text.trimEnd more).dropWhile (· == '*') =
      ' ' :: '@' :: Text.trimEnd more := by
    simp
  rw [unstarred, Text.trim]
  have start : Text.trimStart (' ' :: '@' :: Text.trimEnd more) =
      [] ++ '@' :: Text.trimEnd more := by
    simp [Text.trimStart, blank, visible]
  rw [start, Text.trimEnd_append_cons visible.1]
  rfl

/-- The lines of a comment that come before its first tag. -/
def describingLines (raw : List Char) : List (List Char) :=
  ((Text.lines (inner raw)).map cleanLine).takeWhile (!isTag ·)

theorem describingLines_eq (front back : List Char) :
    describingLines ("/**".toList ++ front ++ '\n' :: (" * @".toList ++ back ++ "*/".toList)) =
      describingLines ("/**".toList ++ front ++ '\n' :: "*/".toList) := by
  have closed : dropCloseMarks (" * @".toList ++ back ++ "*/".toList) =
      " * @".toList ++ dropCloseMarks (back ++ "*/".toList) := by
    simpa using dropCloseMarks_append_cons (by decide) (by decide) " * ".toList
      (back ++ "*/".toList)
  have bare : dropCloseMarks ([] ++ "*/".toList) = [] := by decide
  obtain ⟨more, others, first⟩ := Text.exists_lines_append " * @".toList
    (dropCloseMarks (back ++ "*/".toList)) (by decide) (by decide)
  have whole := inner_comment front []
  rw [bare, List.nil_append] at whole
  have no_line : Text.lines [] = [] := by decide
  rw [describingLines, describingLines, inner_comment, closed, whole, Text.lines_append_cons,
    Text.lines_append_cons, first, no_line, List.append_nil, List.map_append, List.map_cons,
    List.takeWhile_append, List.takeWhile_cons_of_neg (by rw [isTag_cleanLine]; decide),
    List.append_nil]
  split
  next untagged => exact ((List.takeWhile_prefix _).eq_of_length untagged).symm
  next => rfl

/-! ### Lines of a summary -/

/-- Whether a text is made of lines as a summary is: the first and the last are not empty, none has
a blank at an end, and none starts a tag. -/
structure IsTidy (text : List Char) : Prop where
  first : (Text.splitOn '\n' text).head? ≠ some []
  last : (Text.splitOn '\n' text).getLast? ≠ some []
  trimmed : ∀ line ∈ Text.splitOn '\n' text, Text.IsTrimmed line
  untagged : ∀ line ∈ Text.splitOn '\n' text, line.head? ≠ some '@'

theorem lineFeed_not_mem_cleanLine {line : List Char} (single : '\n' ∉ line) :
    '\n' ∉ cleanLine line := by
  have of_trim {cs : List Char} : '\n' ∈ Text.trim cs → '\n' ∈ cs := fun listed =>
    subset_of_dropWhile Text.isBlank cs listed
  exact fun listed => single (of_trim ((List.dropWhile_sublist _).subset (of_trim listed)))

theorem mem_summaryLines {raw line : List Char} (listed : line ∈ summaryLines raw) :
    Text.IsTrimmed line ∧ line.head? ≠ some '@' ∧ '\n' ∉ line := by
  have describing : line ∈ describingLines raw := subset_of_dropWhile List.isEmpty _ listed
  have untagged := List.mem_takeWhile_imp describing
  obtain ⟨piece, written, rfl⟩ := List.mem_map.mp ((List.takeWhile_sublist _).subset describing)
  have cut : piece ∈ Text.splitOn '\n' (inner raw) := by
    unfold Text.lines at written
    dsimp only at written
    split at written
    · exact (List.dropLast_sublist _).subset written
    · exact written
  exact ⟨Text.isTrimmed_trim _, by simpa [isTag] using untagged,
    lineFeed_not_mem_cleanLine (Text.not_mem_of_mem_splitOn cut)⟩

theorem isTidy_joinWith {raw : List Char} (filled : summaryLines raw ≠ []) :
    IsTidy (Text.joinWith ['\n'] (summaryLines raw)) := by
  have read := Text.splitOn_joinWith filled fun line listed => (mem_summaryLines listed).2.2
  -- The empty lines at both ends are dropped as blanks are from a line.
  have ends := ends_of_dropWhile List.isEmpty (describingLines raw)
  constructor <;> rw [read]
  · exact fun first => absurd (ends.1 [] first) (by decide)
  · exact fun last => absurd (ends.2 [] last) (by decide)
  · exact fun line listed => (mem_summaryLines listed).1
  · exact fun line listed => (mem_summaryLines listed).2.1

/-! ### Comments read back -/

/-- The lines of a text, each behind a star. -/
def starred (text : List Char) : List Char :=
  (Text.splitOn '\n' text).flatMap fun line => "\n * ".toList ++ line

theorem cleanLine_starred {line : List Char} (trimmed : Text.IsTrimmed line) :
    cleanLine (" * ".toList ++ line) = line := by
  have blank : Text.isBlank ' ' = true := by decide
  have visible : Text.isBlank '*' = false := by decide
  cases line with
  | nil => decide
  | cons c rest =>
    -- The line keeps its first and its last character, so it is kept whole.
    have first : Text.isBlank c = false := trimmed.1 c rfl
    have kept : Text.trimEnd (c :: rest) = c :: rest :=
      List.rdropWhile_eq_self_iff.mpr fun filled =>
        Bool.eq_false_iff.mp (trimmed.2 _ (List.getLast?_eq_some_getLast filled))
    have start : Text.trimStart (" * ".toList ++ c :: rest) = "* ".toList ++ c :: rest := by
      simp [Text.trimStart, blank, visible]
    have unstarred : ("* ".toList ++ c :: rest).dropWhile (· == '*') = ' ' :: c :: rest := by simp
    have bare : Text.trimStart (' ' :: c :: rest) = c :: rest := by
      simp [Text.trimStart, blank, first]
    have marked : Text.trimEnd ("* ".toList ++ c :: rest) = "* ".toList ++ c :: rest := by
      rw [Text.trimEnd_append_cons first, ← List.nil_append (c :: Text.trimEnd rest),
        ← Text.trimEnd_append_cons first, List.nil_append, kept]
    rw [cleanLine, Text.trim, Text.trim, start, marked, unstarred, bare, kept]

theorem splitOn_starred (lines : List (List Char)) (single : ∀ line ∈ lines, '\n' ∉ line) :
    Text.splitOn '\n' (lines.flatMap fun line => "\n * ".toList ++ line) =
      [] :: lines.map (" * ".toList ++ ·) := by
  induction lines using List.reverseRecOn with
  | nil => rfl
  | append_singleton front line ih =>
    have plain : '\n' ∉ " * ".toList ++ line := by simpa using single line (by simp)
    have written : ((front ++ [line]).flatMap fun line => "\n * ".toList ++ line) =
        (front.flatMap fun line => "\n * ".toList ++ line) ++ '\n' :: (" * ".toList ++ line) := by
      simp
    rw [written, Text.splitOn_append_separator, Text.splitOn_of_not_mem plain,
      ih fun line listed => single line (by simp [listed])]
    simp

/-- A tidy text is the summary of the comment that holds its lines. -/
theorem summaryLines_starred {text : List Char} (tidy : IsTidy text) :
    summaryLines ("/**".toList ++ starred text ++ '\n' :: "*/".toList) =
      Text.splitOn '\n' text := by
  have single (line : List Char) (listed : line ∈ Text.splitOn '\n' text) : '\n' ∉ line :=
    Text.not_mem_of_mem_splitOn listed
  obtain ⟨first, rest, cut⟩ := List.exists_cons_of_ne_nil (Text.splitOn_ne_nil '\n' text)
  -- Behind the first mark stands a line feed, so no mark but that one is taken off.
  have opened : dropOpenMarks (dropDocMarks ("/**".toList ++ starred text)) = starred text := by
    have unmarked : starred text =
        '\n' :: (" * ".toList ++ first ++ rest.flatMap fun line => "\n * ".toList ++ line) := by
      simp [starred, cut]
    rw [unmarked, dropDocMarks_append_cons (by decide) (by decide)]
    exact dropOpenMarks_append_cons (by decide) (by decide) [] _
  have closed : dropCloseMarks ([] ++ "*/".toList) = [] := by decide
  have whole := inner_comment (starred text) []
  have no_line : Text.lines [] = [] := by decide
  rw [closed, List.nil_append, opened] at whole
  have cleaned : (Text.splitOn '\n' (starred text)).map cleanLine =
      [] :: Text.splitOn '\n' text := by
    rw [starred, splitOn_starred _ single, List.map_cons, List.map_map]
    exact congrArg (List.cons []) ((List.map_congr_left fun line listed =>
      cleanLine_starred (tidy.trimmed line listed)).trans (List.map_id _))
  have untagged : ([] :: Text.splitOn '\n' text).takeWhile (!isTag ·) =
      [] :: Text.splitOn '\n' text := by
    rw [List.takeWhile_eq_self_iff]
    intro line listed
    rcases List.mem_cons.mp listed with rfl | listed
    · rfl
    · simpa [isTag] using tidy.untagged line listed
  have start : ([] :: Text.splitOn '\n' text).dropWhile List.isEmpty =
      Text.splitOn '\n' text := by
    have filled := tidy.first
    rw [cut] at filled ⊢
    simp_all
  rw [summaryLines, whole, Text.lines_append_cons, no_line, List.append_nil, cleaned, untagged,
    dropEmptyEnds, start]
  -- The last line is not empty either.
  apply List.rdropWhile_eq_self_iff.mpr
  intro filled empty
  have last := List.getLast?_eq_some_getLast filled
  rw [List.isEmpty_iff.mp empty] at last
  exact tidy.last last

/-- A summary ends in front of the first tag, whatever stands behind it. It is empty or tidy, and
each tidy text is the summary of a comment that holds its lines. -/
theorem summary_endsAtTag :
    (∀ front back : String, summary ("/**" ++ front ++ "\n * @" ++ back ++ "*/") =
      summary ("/**" ++ front ++ "\n*/")) ∧
    (∀ raw : String, summary raw = "" ∨ IsTidy (summary raw).toList) ∧
    ∀ text : String, IsTidy text.toList →
      summary ("/**" ++ String.ofList (starred text.toList) ++ "\n*/") = text := by
  refine ⟨?_, ?_, ?_⟩
  · intro front back
    have lines := congrArg dropEmptyEnds (describingLines_eq front.toList back.toList)
    have texts : (("/**" ++ front ++ "\n * @" ++ back ++ "*/").toList =
          "/**".toList ++ front.toList ++ '\n' :: (" * @".toList ++ back.toList ++ "*/".toList)) ∧
        ("/**" ++ front ++ "\n*/").toList =
          "/**".toList ++ front.toList ++ '\n' :: "*/".toList := by
      simp
    rw [summary, summary, texts.1, texts.2]
    exact congrArg (fun lines => String.ofList (Text.joinWith ['\n'] lines)) lines
  · intro raw
    by_cases filled : summaryLines raw.toList = []
    · left
      rw [summary, filled]
      rfl
    · right
      rw [summary, String.toList_ofList]
      exact isTidy_joinWith filled
  · intro text tidy
    have written : ("/**" ++ String.ofList (starred text.toList) ++ "\n*/").toList =
        "/**".toList ++ starred text.toList ++ '\n' :: "*/".toList := by
      simp
    rw [summary, written, summaryLines_starred tidy, Text.joinWith_splitOn, String.ofList_toList]

-- Lines of stars are empty, and what stands behind a tag is lost with it.
example : summary "/**\n ***\n * Keeps\n * items. @see x\n *\n * @since 2\n * more\n */" =
    "Keeps\nitems. @see x" := by
  decide +kernel

end Javadoc

end JavaDiagram
