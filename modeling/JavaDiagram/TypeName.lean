import JavaDiagram.Text.Search

/-!
# Type names

A type as written is reduced to the identifier that all edges and labels use. Three passes run one
after the other: every `<` goes together with all up to the first `>` after it (brackets are not
balanced), then `[]` is removed until none is left, then the text ends before the first `@`.
-/

namespace JavaDiagram.TypeName

/-- Removes each `<` with everything up to the first `>` that follows it. A `<` that no `>` follows
stays, with all that comes after it. -/
def dropGenerics : List Char → List Char
  | [] => []
  | c :: rest =>
    if c = '<' then
      -- The first `>` closes, also where an inner `<` was opened.
      if '>' ∈ rest then dropGenerics (rest.dropWhile (· != '>')).tail else c :: rest
    else c :: dropGenerics rest
  termination_by cs => cs.length
  decreasing_by
    · have : (rest.dropWhile (· != '>')).length ≤ rest.length :=
        (List.dropWhile_sublist _).length_le
      simp only [List.length_tail, List.length_cons]
      omega
    · simp

/-- One pass from left to right that removes every `[]` it meets. -/
def removePairs : List Char → List Char
  | '[' :: ']' :: rest => removePairs rest
  | c :: rest => c :: removePairs rest
  | [] => []

theorem length_removePairs_le (cs : List Char) : (removePairs cs).length ≤ cs.length := by
  fun_induction removePairs cs with
  | case1 rest ih => simp only [List.length_cons]; omega
  | case2 c rest _ ih => simpa using ih
  | case3 => simp

/-- A pass over a text that holds `[]` makes it shorter. -/
theorem length_removePairs_lt {cs : List Char} (h : Text.hasInfix ['[', ']'] cs = true) :
    (removePairs cs).length < cs.length := by
  fun_induction removePairs cs with
  | case1 rest _ =>
    have := length_removePairs_le rest
    simp only [List.length_cons]
    omega
  | case2 c rest hne ih =>
    simp only [Text.hasInfix, Bool.or_eq_true] at h
    rcases h with h | h
    · simp only [List.isPrefixOf_iff_prefix] at h
      obtain ⟨tail, ht⟩ := h
      simp only [List.cons_append, List.nil_append, List.cons.injEq] at ht
      exact absurd ht.2.symm (hne tail ht.1.symm)
    · simpa using ih h
  | case3 => simp [Text.hasInfix] at h

/-- Removes `[]` until none is left. -/
def dropArrayMarkers (cs : List Char) : List Char :=
  if _h : Text.hasInfix ['[', ']'] cs = true then dropArrayMarkers (removePairs cs) else cs
  termination_by cs.length
  decreasing_by exact length_removePairs_lt ‹_›

/-- The normal form of a type as a list of characters. -/
def normalForm (cs : List Char) : List Char :=
  (dropArrayMarkers (dropGenerics cs)).takeWhile (· != '@')

def normalize (raw : String) : String :=
  String.ofList (normalForm raw.toList)

end JavaDiagram.TypeName
