import Mathlib.Data.List.TakeWhile
import Mathlib.Logic.Function.Iterate
import JavaDiagram.TypeName

/-!
# Array markers

Removing `[]` until none is left is the same as reading the text once with a stack: a `]` that meets
an uncancelled `[` on top takes it away, all else is kept. Read this way, a pair of brackets leaves
the stack as it was, wherever it stands. Hence array markers do not matter to the normal form of a
type, whether they stand at its end, in a generic segment or behind an annotation.
-/

namespace JavaDiagram.TypeName

/-! ### Reading with a stack -/

/-- Reads a character. The stack holds what is kept so far, the last character on top. -/
def cancel (kept : List Char) (c : Char) : List Char :=
  if c = ']' ∧ kept.head? = some '[' then kept.tail else c :: kept

/-- One pass from left to right in which a `]` cancels an uncancelled `[` right before it. -/
def cancelPairs (cs : List Char) : List Char :=
  (cs.foldl cancel []).reverse

@[simp]
theorem cancel_pair (kept : List Char) : cancel (cancel kept '[') ']' = kept := by
  simp [cancel]

/-- A pass that removes pairs does nothing that the stack does not do. -/
theorem foldl_cancel_removePairs (kept cs : List Char) :
    (removePairs cs).foldl cancel kept = cs.foldl cancel kept := by
  fun_induction removePairs cs generalizing kept with
  | case1 rest ih => simp [ih]
  | case2 c rest _ ih => exact ih (cancel kept c)
  | case3 => rfl

/-- Without `[]` nothing is cancelled. The kept characters count as the front of the text. -/
theorem foldl_cancel_of_no_marker {kept cs : List Char}
    (plain : ¬ ['[', ']'] <:+: kept.reverse ++ cs) : cs.foldl cancel kept = cs.reverse ++ kept := by
  induction cs generalizing kept with
  | nil => rfl
  | cons c rest ih =>
    have kept_c : cancel kept c = c :: kept := by
      rw [cancel, if_neg]
      rintro ⟨rfl, top⟩
      obtain ⟨below, rfl⟩ := List.head?_eq_some_iff.mp top
      exact plain ⟨below.reverse, rest, by simp⟩
    rw [List.foldl_cons, kept_c, ih (by simpa using plain)]
    simp

theorem cancelPairs_eq_self {cs : List Char} (plain : ¬ ['[', ']'] <:+: cs) :
    cancelPairs cs = cs := by
  have kept_all : cs.foldl cancel [] = cs.reverse ++ [] := foldl_cancel_of_no_marker plain
  rw [cancelPairs, kept_all, List.append_nil, List.reverse_reverse]

theorem cancelPairs_removePairs (cs : List Char) : cancelPairs (removePairs cs) = cancelPairs cs :=
  congrArg List.reverse (foldl_cancel_removePairs [] cs)

/-! ### The loop of passes -/

/-- The loop ends after some rounds: before each of them `[]` occurs, and after the last it does
not. What is left is what the stack keeps. -/
theorem exists_rounds (cs : List Char) :
    ∃ rounds, (∀ k < rounds, ['[', ']'] <:+: removePairs^[k] cs) ∧
      ¬ ['[', ']'] <:+: removePairs^[rounds] cs ∧
      removePairs^[rounds] cs = dropArrayMarkers cs ∧
      removePairs^[rounds] cs = cancelPairs cs := by
  fun_induction dropArrayMarkers cs with
  | case1 cs found ih =>
    obtain ⟨rounds, before, after, result, stack⟩ := ih
    refine ⟨rounds + 1, fun k below => ?_, after, result, stack.trans (cancelPairs_removePairs cs)⟩
    cases k with
    | zero => exact Text.hasInfix_iff.mp found
    | succ k => exact before k (by omega)
  | case2 cs absent =>
    have plain : ¬ ['[', ']'] <:+: cs := fun found => absent (Text.hasInfix_iff.mpr found)
    exact ⟨0, by simp, plain, rfl, (cancelPairs_eq_self plain).symm⟩

theorem dropArrayMarkers_eq_cancelPairs (cs : List Char) :
    dropArrayMarkers cs = cancelPairs cs := by
  obtain ⟨rounds, _, _, loop, stack⟩ := exists_rounds cs
  exact loop.symm.trans stack

/-! ### A pair put into a text -/

theorem dropGenerics_closed {rest : List Char} (closed : '>' ∈ rest) :
    dropGenerics ('<' :: rest) = dropGenerics (rest.dropWhile (· != '>')).tail := by
  simp [dropGenerics, closed]

theorem dropGenerics_unclosed {rest : List Char} (unclosed : '>' ∉ rest) :
    dropGenerics ('<' :: rest) = '<' :: rest := by
  simp [dropGenerics, unclosed]

theorem dropGenerics_other {c : Char} (other : c ≠ '<') (rest : List Char) :
    dropGenerics (c :: rest) = c :: dropGenerics rest := by
  simp [dropGenerics, other]

/-- A segment that ends in a text ends there, whatever follows. -/
theorem dropWhile_append_of_closed {rest : List Char} (closed : '>' ∈ rest) (back : List Char) :
    ((rest ++ back).dropWhile (· != '>')).tail = (rest.dropWhile (· != '>')).tail ++ back := by
  have ends : rest.dropWhile (· != '>') ≠ [] := by
    rw [Ne, List.dropWhile_eq_nil_iff]
    exact fun none_closes => by simpa using none_closes '>' closed
  rw [List.dropWhile_append, if_neg (by simpa using ends), List.tail_append_of_ne_nil ends]

/-- A pair of brackets in a generic segment goes with the segment. Elsewhere it stays, and the stack
cancels it. -/
theorem foldl_cancel_dropGenerics (kept front back : List Char) :
    (dropGenerics (front ++ '[' :: ']' :: back)).foldl cancel kept =
      (dropGenerics (front ++ back)).foldl cancel kept := by
  fun_induction dropGenerics front generalizing kept with
  | case1 => simp [dropGenerics_other]
  | case2 rest closed ih =>
    have reached (back : List Char) : dropGenerics ('<' :: rest ++ back) =
        dropGenerics ((rest.dropWhile (· != '>')).tail ++ back) := by
      rw [← dropWhile_append_of_closed closed]
      exact dropGenerics_closed (List.mem_append_left back closed)
    rw [reached, reached]
    exact ih kept
  | case3 rest unclosed =>
    -- Now `back` decides whether the segment ends, and with it whether the pair stays.
    have passed : ∀ c ∈ rest, (c != '>') = true := by
      intro c listed
      simpa using ne_of_mem_of_not_mem listed unclosed
    by_cases closed : '>' ∈ back
    · rw [List.cons_append, List.cons_append, dropGenerics_closed (by simp [closed]),
        dropGenerics_closed (by simp [closed]), List.dropWhile_append_of_pos passed,
        List.dropWhile_append_of_pos passed]
      rfl
    · rw [List.cons_append, List.cons_append, dropGenerics_unclosed (by simp [closed, unclosed]),
        dropGenerics_unclosed (by simp [closed, unclosed])]
      simp
  | case4 c rest other ih =>
    simp only [List.cons_append, dropGenerics_other other, List.foldl_cons]
    exact ih (cancel kept c)

theorem normalForm_insert (front back : List Char) :
    normalForm (front ++ '[' :: ']' :: back) = normalForm (front ++ back) := by
  rw [normalForm, normalForm, dropArrayMarkers_eq_cancelPairs, dropArrayMarkers_eq_cancelPairs,
    cancelPairs, cancelPairs, foldl_cancel_dropGenerics]

theorem normalize_insert (front back : String) :
    normalize (front ++ "[]" ++ back) = normalize (front ++ back) := by
  have chars : (front ++ "[]" ++ back).toList = front.toList ++ '[' :: ']' :: back.toList := by
    simp
  rw [normalize, chars, normalForm_insert, ← String.toList_append]
  rfl

theorem normalize_append_markers (raw : String) (count : Nat) :
    normalize (raw ++ String.join (List.replicate count "[]")) = normalize raw := by
  induction count with
  | zero => simp
  | succ count ih =>
    rw [List.replicate_succ, String.join_cons, ← String.append_assoc, normalize_insert, ih]

/-- Array markers never matter: a pair of brackets may stand anywhere in a type, and any number of
them at its end. The loop that removes them ends, with the result of a single pass with a stack. -/
theorem arrayMarkers_cancel :
    (∀ front back : String, normalize (front ++ "[]" ++ back) = normalize (front ++ back)) ∧
    (∀ (raw : String) (count : Nat),
      normalize (raw ++ String.join (List.replicate count "[]")) = normalize raw) ∧
    ∀ cs : List Char, ∃ rounds,
      (∀ k < rounds, ['[', ']'] <:+: removePairs^[k] cs) ∧
      ¬ ['[', ']'] <:+: removePairs^[rounds] cs ∧
      removePairs^[rounds] cs = dropArrayMarkers cs ∧
      removePairs^[rounds] cs = cancelPairs cs :=
  ⟨normalize_insert, normalize_append_markers, exists_rounds⟩

-- The outer brackets meet when the inner ones are gone.
example : removePairs^[2] "byte[[]][".toList = "byte[".toList := by decide

end JavaDiagram.TypeName
