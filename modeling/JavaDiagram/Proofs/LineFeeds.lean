import Mathlib.Algebra.BigOperators.Group.List.Basic
import Mathlib.Algebra.Ring.Nat
import Mathlib.Data.List.Induction
import JavaDiagram.Text.Lines

/-!
# Line feeds

A text has one line for each line feed if it ends with one. Texts that are written to a line each
take more lines than there are texts, one more for each line feed in them.
-/

namespace JavaDiagram

/-- How many line feeds a text holds. -/
def lineFeeds (text : String) : Nat :=
  text.toList.count '\n'

/-- How many line feeds several texts hold together. -/
def totalLineFeeds (texts : List String) : Nat :=
  (texts.map lineFeeds).sum

@[simp]
theorem lineFeeds_append (front back : String) :
    lineFeeds (front ++ back) = lineFeeds front + lineFeeds back := by
  rw [lineFeeds, String.toList_append, List.count_append]
  rfl

@[simp]
theorem totalLineFeeds_nil : totalLineFeeds [] = 0 :=
  rfl

@[simp]
theorem totalLineFeeds_cons (text : String) (texts : List String) :
    totalLineFeeds (text :: texts) = lineFeeds text + totalLineFeeds texts :=
  List.sum_cons

@[simp]
theorem totalLineFeeds_append (front back : List String) :
    totalLineFeeds (front ++ back) = totalLineFeeds front + totalLineFeeds back := by
  rw [totalLineFeeds, List.map_append, List.sum_append]
  rfl

theorem totalLineFeeds_eq_zero_iff {texts : List String} :
    totalLineFeeds texts = 0 ↔ ∀ text ∈ texts, lineFeeds text = 0 := by
  induction texts with
  | nil => simp
  | cons text rest ih => simp [ih]

@[simp]
theorem totalLineFeeds_map {α : Type} (text : α → String) (items : List α) :
    totalLineFeeds (items.map text) = (items.map fun item => lineFeeds (text item)).sum := by
  rw [totalLineFeeds, List.map_map]
  rfl

@[simp]
theorem totalLineFeeds_flatMap {α : Type} (texts : α → List String) (items : List α) :
    totalLineFeeds (items.flatMap texts) =
      (items.map fun item => totalLineFeeds (texts item)).sum := by
  induction items with
  | nil => rfl
  | cons item rest ih => simp [ih]

/-- A mark in front of every text adds no line feed, if it holds none. -/
theorem totalLineFeeds_map_append {mark : String} (plain : lineFeeds mark = 0)
    (texts : List String) : totalLineFeeds (texts.map (mark ++ ·)) = totalLineFeeds texts := by
  rw [totalLineFeeds_map]
  simp only [lineFeeds_append, plain, Nat.zero_add]
  rfl

theorem lineFeeds_intercalate {separator : String} (plain : lineFeeds separator = 0)
    (texts : List String) : lineFeeds (separator.intercalate texts) = totalLineFeeds texts := by
  induction texts with
  | nil => rfl
  | cons text rest ih =>
    cases rest with
    | nil => simp
    | cons next more =>
      rw [String.intercalate_cons_cons, lineFeeds_append, lineFeeds_append, plain, ih, Nat.add_zero,
        ← totalLineFeeds_cons]

/-! ### Lines of a text -/

namespace Text

theorem length_splitOn (separator : Char) (cs : List Char) :
    (splitOn separator cs).length = cs.count separator + 1 := by
  induction cs with
  | nil => rfl
  | cons c rest ih =>
    unfold splitOn
    split
    next same => rw [List.length_cons, ih, same, List.count_cons_self]
    next different =>
      rw [List.count_cons_of_ne different, ← ih]
      split
      next nothing => exact absurd nothing (splitOn_ne_nil separator rest)
      next piece pieces cut => rw [cut, List.length_cons, List.length_cons]

/-- A separator ends the pieces in front of it, and others start behind it. -/
theorem splitOn_append_separator (separator : Char) (front back : List Char) :
    splitOn separator (front ++ separator :: back) =
      splitOn separator front ++ splitOn separator back := by
  induction front with
  | nil => simp [splitOn]
  | cons c rest ih =>
    obtain ⟨piece, pieces, cut⟩ :=
      List.exists_cons_of_ne_nil (splitOn_ne_nil separator rest)
    rw [List.cons_append, splitOn, splitOn, ih, cut]
    split <;> rfl

/-- A separator at the end starts an empty last piece. -/
theorem splitOn_append_singleton (separator : Char) (cs : List Char) :
    splitOn separator (cs ++ [separator]) = splitOn separator cs ++ [[]] :=
  splitOn_append_separator separator cs []

/-- A text that ends with a line feed has one line for each line feed. -/
theorem length_lines_append_singleton (cs : List Char) :
    (lines (cs ++ ['\n'])).length = (cs ++ ['\n']).count '\n' := by
  unfold lines
  rw [splitOn_append_singleton]
  simp [length_splitOn]

end Text

theorem lineFeeds_unlines (texts : List String) :
    lineFeeds (Text.unlines texts) = texts.length + totalLineFeeds texts := by
  induction texts with
  | nil => rfl
  | cons text rest ih =>
    have feed : lineFeeds "\n" = 1 := by decide
    rw [Text.unlines] at ih ⊢
    rw [List.map_cons, String.join_cons, lineFeeds_append, lineFeeds_append, ih, feed,
      List.length_cons, totalLineFeeds_cons]
    omega

/-- Texts written one after the other take a line each, and one more for each line feed in them. -/
theorem length_lines_unlines (texts : List String) :
    (Text.lines (Text.unlines texts).toList).length = texts.length + totalLineFeeds texts := by
  rw [← lineFeeds_unlines, lineFeeds]
  cases texts using List.reverseRecOn with
  | nil => rfl
  | append_singleton front last =>
    -- The last line is ended like all others, so nothing stands behind the last line feed.
    have written : (Text.unlines (front ++ [last])).toList =
        ((Text.unlines front).toList ++ last.toList) ++ ['\n'] := by
      simp [Text.unlines, String.join_append, String.join_cons]
    rw [written, Text.length_lines_append_singleton]

/-! ### Lines read back -/

namespace Text

theorem splitOn_of_not_mem {separator : Char} {piece : List Char} (whole : separator ∉ piece) :
    splitOn separator piece = [piece] := by
  induction piece with
  | nil => rfl
  | cons c piece ih =>
    rw [List.mem_cons, not_or] at whole
    rw [splitOn, if_neg (Ne.symm whole.1), ih whole.2]

/-- A piece ends at the first separator. -/
theorem splitOn_append_cons {separator : Char} {piece : List Char} (whole : separator ∉ piece)
    (rest : List Char) :
    splitOn separator (piece ++ separator :: rest) = piece :: splitOn separator rest := by
  rw [splitOn_append_separator, splitOn_of_not_mem whole, List.singleton_append]

theorem not_mem_of_mem_splitOn {separator : Char} {cs piece : List Char}
    (listed : piece ∈ splitOn separator cs) : separator ∉ piece := by
  induction cs generalizing piece with
  | nil => simp_all [splitOn]
  | cons c cs ih =>
    obtain ⟨first, rest, cut⟩ := List.exists_cons_of_ne_nil (splitOn_ne_nil separator cs)
    rw [splitOn, cut] at listed
    rw [cut] at ih
    split at listed
    next =>
      rcases List.mem_cons.mp listed with rfl | listed
      · exact List.not_mem_nil
      · exact ih listed
    next different =>
      rcases List.mem_cons.mp listed with rfl | listed
      · rw [List.mem_cons, not_or]
        exact ⟨Ne.symm different, ih List.mem_cons_self⟩
      · exact ih (List.mem_cons_of_mem first listed)

/-- Texts that are one line each are read back from the lines that they are written to. -/
theorem lines_unlines {texts : List String} (single : ∀ text ∈ texts, '\n' ∉ text.toList) :
    lines (unlines texts).toList = texts.map String.toList := by
  have parts : splitOn '\n' (unlines texts).toList = texts.map String.toList ++ [[]] := by
    induction texts with
    | nil => rfl
    | cons text rest ih =>
      have written : (unlines (text :: rest)).toList =
          text.toList ++ '\n' :: (unlines rest).toList := by
        simp [unlines, String.join_cons]
      rw [written, splitOn_append_cons (single text (by simp)),
        ih fun other member => single other (by simp [member])]
      rfl
  simp [lines, parts]

end Text

end JavaDiagram
