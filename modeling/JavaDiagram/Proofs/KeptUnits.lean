import Mathlib.Data.List.Find
import Mathlib.Data.List.Nodup
import JavaDiagram.Source

/-!
# Units kept

Of loaded units those are kept whose content did not come up before. So the kept units are the first
ones of their contents, in order, and what two lists of units keep together is what the first keeps
and, behind it, what the second keeps, less the contents of the first.
-/

namespace JavaDiagram

/-- Whether units are the first ones of their keys among others, in order, and for each key there is
one. -/
structure KeepsFirst (key : SourceUnit → String) (loaded kept : List SourceUnit) : Prop where
  inOrder : kept.Sublist loaded
  distinct : (kept.map key).Nodup
  represented : ∀ unit ∈ loaded, ∃ first ∈ kept, loaded.find? (key · = key unit) = some first

variable {seen : List String}

theorem dedupFrom_congr {seen' : List String} (same : ∀ hash, hash ∈ seen ↔ hash ∈ seen')
    (units : List SourceUnit) : dedupFrom seen units = dedupFrom seen' units := by
  induction units generalizing seen seen' with
  | nil => rfl
  | cons unit rest ih =>
    have extended (hash : String) : hash ∈ unit.contentHash :: seen ↔
        hash ∈ unit.contentHash :: seen' := by
      rw [List.mem_cons, List.mem_cons, same]
    rw [dedupFrom, dedupFrom, ih same, ih extended]
    simp only [same]

/-- Units behind others are kept unless their content came up there. -/
theorem dedupFrom_append (front back : List SourceUnit) :
    dedupFrom seen (front ++ back) =
      dedupFrom seen front ++ dedupFrom (front.map (·.contentHash) ++ seen) back := by
  induction front generalizing seen with
  | nil => rfl
  | cons unit rest ih =>
    rw [List.cons_append, dedupFrom, dedupFrom]
    split
    next old =>
      -- The hash is seen already, so it makes no difference that it comes up again.
      have member (hash : String) : hash ∈ rest.map (·.contentHash) ++ seen ↔
          hash ∈ (unit :: rest).map (·.contentHash) ++ seen := by
        rw [List.map_cons, List.cons_append, List.mem_cons, or_iff_right_of_imp]
        rintro rfl
        exact List.mem_append_right _ old
      rw [ih, dedupFrom_congr member]
    next =>
      have member (hash : String) : hash ∈ rest.map (·.contentHash) ++ unit.contentHash :: seen ↔
          hash ∈ (unit :: rest).map (·.contentHash) ++ seen :=
        List.perm_middle.mem_iff
      rw [ih, List.cons_append, dedupFrom_congr member]

/-- Contents seen before are left out of what is kept without them. -/
theorem dedupFrom_append_seen (before : List String) (units : List SourceUnit) :
    dedupFrom (before ++ seen) units =
      (dedupFrom seen units).filter (·.contentHash ∉ before) := by
  induction units generalizing seen with
  | nil => rfl
  | cons unit rest ih =>
    have later : dedupFrom (before ++ unit.contentHash :: seen) rest =
        (dedupFrom (unit.contentHash :: seen) rest).filter (·.contentHash ∉ before) :=
      ih
    have member (hash : String) : hash ∈ before ++ unit.contentHash :: seen ↔
        hash ∈ unit.contentHash :: (before ++ seen) :=
      List.perm_middle.mem_iff
    rw [dedupFrom_congr member] at later
    by_cases old : unit.contentHash ∈ seen
    · rw [dedupFrom, dedupFrom, if_pos old, if_pos (List.mem_append_right _ old), ih]
    · rw [dedupFrom, dedupFrom, if_neg old]
      by_cases known : unit.contentHash ∈ before
      · -- What the hash leaves out behind the unit is left out with it.
        have absorbed (hash : String) : hash ∈ before ++ seen ↔
            hash ∈ unit.contentHash :: (before ++ seen) := by
          rw [List.mem_cons, or_iff_right_of_imp]
          rintro rfl
          exact List.mem_append_left _ known
        rw [if_pos (List.mem_append_left _ known), dedupFrom_congr absorbed, later,
          List.filter_cons_of_neg (by simpa using known)]
      · have fresh : unit.contentHash ∉ before ++ seen := by
          simp [old, known]
        rw [if_neg fresh, later, List.filter_cons_of_pos (by simpa using known)]

theorem dedupFrom_sublist (units : List SourceUnit) :
    (dedupFrom seen units).Sublist units := by
  induction units generalizing seen with
  | nil => exact .refl []
  | cons unit rest ih =>
    rw [dedupFrom]
    split
    · exact ih.cons unit
    · exact ih.cons_cons unit

theorem not_mem_of_mem_dedupFrom {units : List SourceUnit} {unit : SourceUnit}
    (kept : unit ∈ dedupFrom seen units) : unit.contentHash ∉ seen := by
  induction units generalizing seen with
  | nil => cases kept
  | cons head rest ih =>
    rw [dedupFrom] at kept
    split at kept
    next => exact ih kept
    next fresh =>
      rcases List.mem_cons.mp kept with rfl | kept
      · exact fresh
      · exact fun old => ih kept (List.mem_cons_of_mem _ old)

theorem nodup_dedupFrom (units : List SourceUnit) :
    ((dedupFrom seen units).map (·.contentHash)).Nodup := by
  induction units generalizing seen with
  | nil => exact .nil
  | cons unit rest ih =>
    rw [dedupFrom]
    split
    next => exact ih
    next =>
      rw [List.map_cons, List.nodup_cons]
      refine ⟨fun again => ?_, ih⟩
      obtain ⟨other, kept, same⟩ := List.mem_map.mp again
      exact not_mem_of_mem_dedupFrom kept (same ▸ List.mem_cons_self)

/-- The first unit with a content that is not seen yet is kept. -/
theorem exists_first_mem_dedupFrom {units : List SourceUnit} {hash : String} (fresh : hash ∉ seen)
    (listed : hash ∈ units.map (·.contentHash)) :
    ∃ first ∈ dedupFrom seen units, units.find? (·.contentHash = hash) = some first := by
  induction units generalizing seen with
  | nil => cases listed
  | cons unit rest ih =>
    rw [dedupFrom]
    by_cases same : unit.contentHash = hash
    · rw [if_neg (same ▸ fresh)]
      exact ⟨unit, List.mem_cons_self, List.find?_cons_of_pos (by simpa using same)⟩
    · rw [List.find?_cons_of_neg (by simpa using same)]
      have listed : hash ∈ rest.map (·.contentHash) := by
        rw [List.map_cons] at listed
        exact (List.mem_cons.mp listed).resolve_left (Ne.symm same)
      split
      next => exact ih fresh listed
      next =>
        have fresh : hash ∉ unit.contentHash :: seen := by
          rw [List.mem_cons, not_or]
          exact ⟨Ne.symm same, fresh⟩
        obtain ⟨first, kept, found⟩ := ih fresh listed
        exact ⟨first, List.mem_cons_of_mem unit kept, found⟩

theorem keepsFirst_dedupUnits (units : List SourceUnit) :
    KeepsFirst (·.contentHash) units (dedupUnits units) where
  inOrder := dedupFrom_sublist units
  distinct := nodup_dedupFrom units
  represented _ listed :=
    exists_first_mem_dedupFrom List.not_mem_nil (List.mem_map_of_mem listed)

theorem mem_map_dedupUnits_iff {units : List SourceUnit} {hash : String} :
    hash ∈ (dedupUnits units).map (·.contentHash) ↔ hash ∈ units.map (·.contentHash) := by
  have keeps := keepsFirst_dedupUnits units
  refine ⟨fun kept => (keeps.inOrder.map _).subset kept, fun listed => ?_⟩
  obtain ⟨unit, loaded, rfl⟩ := List.mem_map.mp listed
  obtain ⟨first, kept, found⟩ := keeps.represented unit loaded
  exact List.mem_map.mpr ⟨first, kept, by simpa using List.find?_some found⟩

/-- Of more units, those are kept whose content was not kept before. -/
theorem dedupUnits_append (front back : List SourceUnit) :
    dedupUnits (front ++ back) = dedupUnits front ++
      (dedupUnits back).filter (·.contentHash ∉ (dedupUnits front).map (·.contentHash)) := by
  simp only [mem_map_dedupUnits_iff]
  rw [dedupUnits, dedupFrom_append, dedupFrom_append_seen]
  rfl

/-- Keys that tell the same units apart keep the same ones. -/
theorem KeepsFirst.of_key {key key' : SourceUnit → String} {loaded kept : List SourceUnit}
    (keeps : KeepsFirst key loaded kept)
    (alike : ∀ unit ∈ loaded, ∀ other ∈ loaded, key unit = key other ↔ key' unit = key' other) :
    KeepsFirst key' loaded kept := by
  constructor
  · exact keeps.inOrder
  · have told_apart := List.inj_on_of_nodup_map keeps.distinct
    apply List.Nodup.map_on _ keeps.distinct.of_map
    intro unit kept other kept' same
    have listed := keeps.inOrder.subset kept
    have listed' := keeps.inOrder.subset kept'
    exact told_apart kept kept' ((alike unit listed other listed').mpr same)
  · intro unit listed
    obtain ⟨first, kept, found⟩ := keeps.represented unit listed
    refine ⟨first, kept, found ▸ List.find?_congr fun other listed' => ?_⟩
    rw [decide_eq_decide]
    exact (alike other listed' unit listed).symm

end JavaDiagram
