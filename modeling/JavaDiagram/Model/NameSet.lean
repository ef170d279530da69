/-!
# Sorted sets of names

A set of names is a list in strictly increasing order of code points, which is also the order of
the names' UTF-8 bytes.
-/

namespace JavaDiagram

/-- Names in increasing order. -/
abbrev NameSet := List String

namespace NameSet

/-- Adds a name at its place; a name that is there already is not added again. -/
def insert (name : String) : NameSet → NameSet
  | [] => [name]
  | head :: rest =>
    if name < head then name :: head :: rest
    else if name = head then head :: rest
    else head :: NameSet.insert name rest

def insertAll (names : List String) (set : NameSet) : NameSet :=
  names.foldl (fun acc name => acc.insert name) set

/-- An added name is in the set, and nothing else is new. -/
theorem mem_insert {name other : String} {set : NameSet} :
    other ∈ set.insert name ↔ other = name ∨ other ∈ set := by
  induction set with
  | nil => simp [NameSet.insert]
  | cons head rest ih =>
    unfold NameSet.insert
    split
    · simp
    · split
      case isTrue h => subst h; simp
      case isFalse => simp only [List.mem_cons, ih]; grind

end NameSet

end JavaDiagram
