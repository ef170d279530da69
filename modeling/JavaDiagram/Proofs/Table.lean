import Mathlib.Data.List.Induction
import Mathlib.Data.List.Nodup
import JavaDiagram.Model.Table

/-!
# Laws of tables

The names of a table and the value under each of them determine it. A table is grown by revisions,
each of which changes the value under one name: a run of revisions keeps the names in order of
first appearance and gives each name the outcome of its own revisions. What every revision keeps of
the values that it finds holds of all values in the end.
-/

namespace JavaDiagram

/-! ### First occurrences -/

theorem nodup_append_singleton {α : Type} {values : List α} {last : α} (nodup : values.Nodup)
    (fresh : last ∉ values) : (values ++ [last]).Nodup := by
  rw [← List.concat_eq_append]
  exact nodup.concat fresh

theorem eraseDups_append_singleton {α : Type} [BEq α] [LawfulBEq α] (values : List α) (last : α) :
    (values ++ [last]).eraseDups =
      if last ∈ values then values.eraseDups else values.eraseDups ++ [last] := by
  rw [List.eraseDups_append]
  by_cases member : last ∈ values
  · simp [List.removeAll, member]
  · simp [List.removeAll, member, List.eraseDups_cons]

theorem nodup_eraseDups {α : Type} [BEq α] [LawfulBEq α] (values : List α) :
    values.eraseDups.Nodup := by
  induction values using List.reverseRecOn with
  | nil => exact List.nodup_nil
  | append_singleton values last ih =>
    rw [eraseDups_append_singleton]
    split
    · exact ih
    next fresh => exact nodup_append_singleton ih (mt List.mem_eraseDups.mp fresh)

theorem eraseDups_of_nodup {α : Type} [BEq α] [LawfulBEq α] {values : List α}
    (nodup : values.Nodup) : values.eraseDups = values := by
  induction values using List.reverseRecOn with
  | nil => rfl
  | append_singleton values last ih =>
    obtain ⟨front, _, apart⟩ := List.nodup_append.mp nodup
    have fresh : last ∉ values := fun old => apart last old last (by simp) rfl
    rw [eraseDups_append_singleton, if_neg fresh, ih front]

theorem eraseDups_append_of_subset {α : Type} [BEq α] [LawfulBEq α] {values again : List α}
    (known : again ⊆ values) : (values ++ again).eraseDups = values.eraseDups := by
  induction again using List.reverseRecOn with
  | nil => rw [List.append_nil]
  | append_singleton again last ih =>
    rw [List.append_subset] at known
    have old : last ∈ values ++ again := List.mem_append_left again (known.2 (by simp))
    rw [← List.append_assoc, eraseDups_append_singleton, if_pos old, ih known.1]

/-- What comes before decides nothing but through its first occurrences. -/
theorem eraseDups_append_congr {α : Type} [BEq α] [LawfulBEq α] {front front' : List α}
    (same : front.eraseDups = front'.eraseDups) (back : List α) :
    (front ++ back).eraseDups = (front' ++ back).eraseDups := by
  have member (value : α) : value ∈ front ↔ value ∈ front' := by
    rw [← List.mem_eraseDups, same, List.mem_eraseDups]
  induction back using List.reverseRecOn with
  | nil => rw [List.append_nil, List.append_nil, same]
  | append_singleton back last ih =>
    rw [← List.append_assoc, ← List.append_assoc, eraseDups_append_singleton,
      eraseDups_append_singleton, ih]
    simp only [List.mem_append, member]

theorem eraseDups_append_eraseDups {α : Type} [BEq α] [LawfulBEq α] (front back : List α) :
    (front ++ back.eraseDups).eraseDups = (front ++ back).eraseDups := by
  induction back using List.reverseRecOn with
  | nil => rfl
  | append_singleton back last ih =>
    rw [← List.append_assoc, eraseDups_append_singleton (front ++ back),
      eraseDups_append_singleton back]
    by_cases old : last ∈ back
    · rw [if_pos old, if_pos (List.mem_append_right front old), ih]
    · rw [if_neg old, ← List.append_assoc, eraseDups_append_singleton, ih]
      simp only [List.mem_append, List.mem_eraseDups]

/-- A value that every list starts with counts once, before the others. -/
theorem eraseDups_flatMap_cons {α β : Type} [BEq α] [LawfulBEq α] (start : α) (rest : β → List α)
    {items : List β} (some_item : items ≠ []) :
    (items.flatMap fun item => (start :: rest item).eraseDups).eraseDups =
      (start :: items.flatMap rest).eraseDups := by
  have skip (front back : List α) (old : start ∈ front) :
      (front ++ start :: back).eraseDups = (front ++ back).eraseDups := by
    rw [List.append_cons]
    apply eraseDups_append_congr
    rw [eraseDups_append_singleton, if_pos old]
  -- Once the value stands in front, each further list adds only what is behind it.
  have run (items : List β) (front : List α) (old : start ∈ front) :
      (front ++ items.flatMap fun item => (start :: rest item).eraseDups).eraseDups =
        (front ++ items.flatMap rest).eraseDups := by
    induction items using List.reverseRecOn with
    | nil => rfl
    | append_singleton items last ih =>
      rw [List.flatMap_append, List.flatMap_append, List.flatMap_singleton, List.flatMap_singleton,
        ← List.append_assoc, ← List.append_assoc, eraseDups_append_eraseDups,
        skip _ _ (List.mem_append_left _ old)]
      exact eraseDups_append_congr ih (rest last)
  cases items with
  | nil => exact absurd rfl some_item
  | cons item items =>
    rw [List.flatMap_cons, List.flatMap_cons, ← List.cons_append]
    have first : (start :: rest item).eraseDups.eraseDups = (start :: rest item).eraseDups :=
      eraseDups_append_eraseDups [] (start :: rest item)
    exact (eraseDups_append_congr first _).trans (run items _ (List.mem_cons_self ..))

namespace Table

variable {α : Type}

/-! ### Names and entries -/

theorem mem_keys_iff {t : Table α} {key : String} :
    key ∈ t.keys ↔ ∃ value, t.get? key = some value := by
  rw [← Option.isSome_iff_exists]
  simp only [get?, keys, List.lookup_isSome_iff, List.mem_map, beq_iff_eq, eq_comm (a := key)]

theorem contains_iff {t : Table α} {key : String} : t.contains key = true ↔ key ∈ t.keys := by
  rw [contains, Option.isSome_iff_exists, mem_keys_iff]

theorem get?_eq_none_iff {t : Table α} {key : String} : t.get? key = none ↔ key ∉ t.keys := by
  rw [mem_keys_iff, ← Option.isSome_iff_exists, Option.not_isSome_iff_eq_none]

/-- Putting a value under a new name changes nothing that was there. -/
theorem get?_put_of_fresh {t : Table α} {key other : String} {old : α} (value : α)
    (fresh : t.contains key = false) (found : t.get? other = some old) :
    (t.put key value).get? other = some old := by
  have different : other ≠ key := by
    rintro rfl
    rw [contains, found] at fresh
    cases fresh
  rw [get?_put, if_neg different, found]

theorem get?_of_mem_entries {t : Table α} (nodup : t.keys.Nodup) {key : String} {value : α}
    (member : (key, value) ∈ t.entries) : t.get? key = some value := by
  obtain ⟨entries⟩ := t
  simp only [get?, keys] at member nodup ⊢
  induction entries with
  | nil => cases member
  | cons entry rest ih =>
    obtain ⟨fresh, nodup_rest⟩ := List.nodup_cons.mp nodup
    rcases List.mem_cons.mp member with rfl | member
    · exact List.lookup_cons_self
    · have different : (key == entry.1) = false := by
        apply beq_eq_false_iff_ne.mpr
        rintro rfl
        exact fresh (List.mem_map.mpr ⟨_, member, rfl⟩)
      rw [List.lookup_cons, different]
      exact ih nodup_rest member

theorem mem_entries_of_get? {t : Table α} {key : String} {value : α}
    (found : t.get? key = some value) : (key, value) ∈ t.entries := by
  obtain ⟨before, after, split, _⟩ := List.lookup_eq_some_iff.mp found
  rw [split]
  exact List.mem_append_right before (List.mem_cons_self ..)

/-- A value that is found stands between two lists of entries, and another that is put under its
name stands there in its place. -/
theorem exists_entries_put {t : Table α} {key : String} {value : α}
    (found : t.get? key = some value) :
    ∃ front back, t.entries = front ++ (key, value) :: back ∧
      ∀ other, (t.put key other).entries = front ++ (key, other) :: back := by
  obtain ⟨entries⟩ := t
  simp only [get?, put] at found ⊢
  induction entries with
  | nil => cases found
  | cons entry rest ih =>
    obtain ⟨name, held⟩ := entry
    by_cases same : name = key
    · subst same
      rw [List.lookup_cons_self, Option.some.injEq] at found
      subst found
      exact ⟨[], rest, rfl, fun other => if_pos rfl⟩
    · rw [List.lookup_cons, beq_false_of_ne (Ne.symm same)] at found
      obtain ⟨front, back, listed, replaced⟩ := ih found
      refine ⟨(name, held) :: front, back, by rw [listed]; rfl, fun other => ?_⟩
      rw [putEntry, if_neg same, replaced]
      rfl

theorem put_of_get? {t : Table α} {key : String} {value : α}
    (found : t.get? key = some value) : t.put key value = t := by
  obtain ⟨front, back, listed, replaced⟩ := exists_entries_put found
  have same : (t.put key value).entries = t.entries := by rw [replaced, listed]
  cases t
  exact congrArg Table.mk same

theorem contains_put_of_get? {t : Table α} {key : String} {value : α}
    (found : t.get? key = some value) (new : α) (name : String) :
    (t.put key new).contains name = t.contains name := by
  rw [contains, contains, get?_put]
  split
  next same => rw [same, found]; rfl
  next => rfl

theorem eq_or_mem_of_mem_put {t : Table α} {key : String} {value : α} {entry : String × α}
    (member : entry ∈ (t.put key value).entries) : entry = (key, value) ∨ entry ∈ t.entries := by
  obtain ⟨entries⟩ := t
  simp only [put] at member ⊢
  induction entries with
  | nil => simpa [putEntry] using member
  | cons head rest ih =>
    by_cases same : head.1 = key
    · simp only [putEntry, same, if_true, List.mem_cons] at member
      rcases member with new | old
      · exact Or.inl new
      · exact Or.inr (List.mem_cons_of_mem _ old)
    · simp only [putEntry, same, if_false, List.mem_cons] at member ⊢
      rcases member with first | later
      · exact Or.inr (Or.inl first)
      · rcases ih later with new | old
        · exact Or.inl new
        · exact Or.inr (Or.inr old)

theorem nodup_keys_put {t : Table α} (nodup : t.keys.Nodup) (key : String) (value : α) :
    (t.put key value).keys.Nodup := by
  rw [keys_put]
  split
  · exact nodup
  next fresh => exact nodup_append_singleton nodup fresh

/-- The names in their order and the value under each of them determine a table. -/
theorem eq_of_keys_of_get? {t u : Table α} (nodup : t.keys.Nodup) (names : t.keys = u.keys)
    (values : ∀ key, t.get? key = u.get? key) : t = u := by
  -- With distinct names, the entries are the names paired with what they look up.
  have entries (v : Table α) (distinct : v.keys.Nodup) :
      v.entries = v.keys.filterMap fun key => (v.get? key).map (key, ·) := by
    have kept : ∀ entry ∈ v.entries,
        some entry = ((fun key => (v.get? key).map (key, ·)) ∘ Prod.fst) entry := by
      rintro ⟨key, value⟩ member
      simp [get?_of_mem_entries distinct member]
    calc
      v.entries = v.entries.filterMap some := List.filterMap_some.symm
      _ = v.entries.filterMap ((fun key => (v.get? key).map (key, ·)) ∘ Prod.fst) :=
        List.filterMap_congr kept
      _ = v.keys.filterMap fun key => (v.get? key).map (key, ·) := by
        rw [keys, List.filterMap_map]
  have same : t.entries = u.entries := by
    rw [entries t nodup, entries u (names ▸ nodup), ← names]
    simp only [values]
  cases t
  cases u
  congr

/-- A map over the entries is a map over the names, if it is determined by the names. -/
theorem flatMap_entries {β : Type} {t : Table α} (nodup : t.keys.Nodup)
    {f : String × α → List β} {g : String → List β}
    (agree : ∀ key value, t.get? key = some value → f (key, value) = g key) :
    t.entries.flatMap f = t.keys.flatMap g := by
  rw [keys, List.flatMap_map]
  apply List.flatMap_congr
  rintro ⟨key, value⟩ member
  exact agree key value (get?_of_mem_entries nodup member)

end Table

/-! ### Revisions -/

/-- A change to the value under one name, given the old value if there is one. -/
structure Revision (α : Type) where
  name : String
  revised : Option α → α

namespace Table

variable {α : Type}

/-- The value under the name of a revision is revised. -/
def revise (t : Table α) (revision : Revision α) : Table α :=
  t.put revision.name (revision.revised (t.get? revision.name))

/-- Several revisions, one after the other. -/
def reviseAll (t : Table α) (revisions : List (Revision α)) : Table α :=
  revisions.foldl revise t

theorem get?_revise (t : Table α) (revision : Revision α) (name : String) :
    (t.revise revision).get? name =
      if revision.name = name then some (revision.revised (t.get? name)) else t.get? name := by
  rw [revise, get?_put]
  by_cases same : revision.name = name
  · rw [if_pos same, if_pos same.symm, same]
  · rw [if_neg same, if_neg (Ne.symm same)]

/-- The value under a name is the outcome of the revisions of that name. -/
theorem get?_reviseAll (t : Table α) (revisions : List (Revision α)) (name : String) :
    (t.reviseAll revisions).get? name =
      (revisions.filter (·.name = name)).foldl
        (fun value revision => some (revision.revised value)) (t.get? name) := by
  induction revisions generalizing t with
  | nil => rfl
  | cons revision rest ih =>
    have step := ih (t.revise revision)
    rw [get?_revise] at step
    by_cases same : revision.name = name
    · rw [if_pos same] at step
      rw [List.filter_cons_of_pos (by simpa using same)]
      exact step
    · rw [if_neg same] at step
      rw [List.filter_cons_of_neg (by simpa using same)]
      exact step

/-- The names of a revised table come in order of first revision, after those it had. -/
theorem keys_reviseAll_of_nodup {t : Table α} (nodup : t.keys.Nodup)
    (revisions : List (Revision α)) :
    (t.reviseAll revisions).keys = (t.keys ++ revisions.map (·.name)).eraseDups := by
  induction revisions using List.reverseRecOn with
  | nil => simp [reviseAll, eraseDups_of_nodup nodup]
  | append_singleton revisions last ih =>
    have known : last.name ∈ (t.reviseAll revisions).keys ↔
        last.name ∈ t.keys ++ revisions.map (·.name) := by
      rw [ih, List.mem_eraseDups]
    rw [List.map_append, List.map_singleton, ← List.append_assoc, eraseDups_append_singleton, ← ih,
      reviseAll, List.foldl_append]
    simp only [← known]
    exact keys_put _ _ _

theorem keys_reviseAll (revisions : List (Revision α)) :
    (({} : Table α).reviseAll revisions).keys = (revisions.map (·.name)).eraseDups := by
  have empty : ({} : Table α).keys.Nodup := List.nodup_nil
  exact keys_reviseAll_of_nodup empty revisions

end Table

/-! ### Values that fit their names -/

/-- Whether each name is listed once, with a value that fits it. -/
structure Table.Holds {α : Type} (fits : String → α → Prop) (table : Table α) : Prop where
  names : table.keys.Nodup
  values : ∀ name value, (name, value) ∈ table.entries → fits name value

/-- Whether a revision gives a value that fits, if there was none or one that fits. -/
def Revision.Keeps {α : Type} (fits : String → α → Prop) (revision : Revision α) : Prop :=
  ∀ old : Option α, (∀ value, old = some value → fits revision.name value) →
    fits revision.name (revision.revised old)

namespace Table.Holds

variable {α : Type} {fits : String → α → Prop}

theorem empty : ({} : Table α).Holds fits :=
  ⟨List.nodup_nil, fun _ _ member => by cases member⟩

theorem put {t : Table α} (holds : t.Holds fits) {key : String} {value : α}
    (fit : fits key value) : (t.put key value).Holds fits := by
  constructor
  · exact nodup_keys_put holds.names key value
  · intro name other member
    rcases eq_or_mem_of_mem_put member with new | old
    · cases new
      exact fit
    · exact holds.values name other old

theorem of_get? {t : Table α} (holds : t.Holds fits) {key : String} {value : α}
    (found : t.get? key = some value) : fits key value :=
  holds.values key value (mem_entries_of_get? found)

theorem revise {t : Table α} (holds : t.Holds fits) {revision : Revision α}
    (keeps : revision.Keeps fits) : (t.revise revision).Holds fits := by
  apply holds.put
  apply keeps
  intro value found
  exact holds.of_get? found

theorem reviseAll {t : Table α} (holds : t.Holds fits) {revisions : List (Revision α)}
    (keep : ∀ revision ∈ revisions, revision.Keeps fits) : (t.reviseAll revisions).Holds fits := by
  induction revisions generalizing t with
  | nil => exact holds
  | cons revision rest ih =>
    have first := holds.revise (keep revision (by simp))
    exact ih first fun other member => keep other (by simp [member])

end Table.Holds

end JavaDiagram
