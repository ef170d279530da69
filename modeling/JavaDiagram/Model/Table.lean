/-!
# Tables in order of first insertion

A table maps names to values and keeps its names in the order in which they first came. Putting a
value under a known name replaces the value and leaves the name where it is.
-/

namespace JavaDiagram

/-- Names with their values, in order of first insertion. -/
structure Table (α : Type) where
  entries : List (String × α) := []
  deriving DecidableEq, Repr

namespace Table

variable {α : Type}

def keys (t : Table α) : List String :=
  t.entries.map (·.1)

def values (t : Table α) : List α :=
  t.entries.map (·.2)

def get? (t : Table α) (key : String) : Option α :=
  t.entries.lookup key

def contains (t : Table α) (key : String) : Bool :=
  (t.get? key).isSome

/-- Replaces the value under the first entry of `key`, or adds an entry at the end. -/
def putEntry (key : String) (value : α) : List (String × α) → List (String × α)
  | [] => [(key, value)]
  | (k, v) :: rest => if k = key then (key, value) :: rest else (k, v) :: putEntry key value rest

def put (t : Table α) (key : String) (value : α) : Table α :=
  ⟨putEntry key value t.entries⟩

/-- Puts `f` of the old value under a name, or `f` of `fallback` if there is none. -/
def update (t : Table α) (key : String) (fallback : α) (f : α → α) : Table α :=
  t.put key (f ((t.get? key).getD fallback))

/-- A put value is found under its name, and every other name keeps its value. -/
theorem get?_put (t : Table α) (key other : String) (value : α) :
    (t.put key value).get? other = if other = key then some value else t.get? other := by
  obtain ⟨entries⟩ := t
  simp only [put, get?]
  induction entries with
  | nil =>
    by_cases h : other = key <;> grind [putEntry]
  | cons entry rest ih =>
    obtain ⟨k, v⟩ := entry
    by_cases hk : k = key <;> by_cases ho : other = k <;> by_cases h : other = key <;>
      grind [putEntry]

/-- Putting under a known name keeps the names; a new name comes last. -/
theorem keys_put (t : Table α) (key : String) (value : α) :
    (t.put key value).keys = if key ∈ t.keys then t.keys else t.keys ++ [key] := by
  obtain ⟨entries⟩ := t
  simp only [put, keys]
  induction entries with
  | nil => simp [putEntry]
  | cons entry rest ih =>
    obtain ⟨k, v⟩ := entry
    by_cases hk : k = key
    · simp [putEntry, hk]
    · have : key ≠ k := fun h => hk h.symm
      by_cases hm : key ∈ rest.map (·.1) <;> simp_all [putEntry]

end Table

end JavaDiagram
