import Mathlib.Data.List.Infix
import Mathlib.Data.List.TakeWhile
import Mathlib.Data.Set.Basic
import JavaDiagram.TypeName

/-!
# Normal forms of type names

Each pass over a type name takes away all that it looks for and keeps a text that holds nothing of
the kind. The later passes bring back nothing that an earlier one took: they only remove
characters, so no `<` gets in front of a `>`, and the last pass only shortens the text, so no two
brackets meet. Hence the normal forms are the texts that no pass changes.
-/

namespace JavaDiagram.TypeName

/-! ### What the passes leave -/

theorem dropGenerics_sublist (cs : List Char) : (dropGenerics cs).Sublist cs := by
  fun_induction dropGenerics cs with
  | case1 => exact List.Sublist.refl []
  | case2 rest closed ih =>
    -- What follows the first closing bracket is an end of the rest.
    apply ih.trans
    exact ((List.tail_sublist _).trans (List.dropWhile_sublist _)).cons '<'
  | case3 rest open_ended => exact List.Sublist.refl _
  | case4 c rest other ih => exact ih.cons_cons c

theorem removePairs_sublist (cs : List Char) : (removePairs cs).Sublist cs := by
  fun_induction removePairs cs with
  | case1 rest ih => exact (ih.cons ']').cons '['
  | case2 c rest _ ih => exact ih.cons_cons c
  | case3 => exact List.Sublist.refl []

theorem dropArrayMarkers_sublist (cs : List Char) : (dropArrayMarkers cs).Sublist cs := by
  fun_induction dropArrayMarkers cs with
  | case1 cs _ ih => exact ih.trans (removePairs_sublist cs)
  | case2 => exact List.Sublist.refl _

/-- A type loses characters and gains none on its way to the normal form. -/
theorem normalForm_sublist (cs : List Char) : (normalForm cs).Sublist cs := by
  apply (List.takeWhile_sublist _).trans
  exact (dropArrayMarkers_sublist _).trans (dropGenerics_sublist cs)

theorem generic_not_sublist_dropGenerics (cs : List Char) :
    ¬ ['<', '>'].Sublist (dropGenerics cs) := by
  fun_induction dropGenerics cs with
  | case1 => simp
  | case2 rest closed ih => exact ih
  | case3 rest unclosed => simpa using unclosed
  | case4 c rest other ih =>
    rw [List.cons_sublist_cons']
    rintro (later | ⟨same, _⟩)
    · exact ih later
    · exact other same.symm

theorem marker_not_infix_dropArrayMarkers (cs : List Char) :
    ¬ ['[', ']'] <:+: dropArrayMarkers cs := by
  fun_induction dropArrayMarkers cs with
  | case1 cs _ ih => exact ih
  | case2 cs absent => exact fun found => absent (Text.hasInfix_iff.mpr found)

/-! ### Texts that the passes keep -/

theorem dropGenerics_eq_self {cs : List Char} (plain : ¬ ['<', '>'].Sublist cs) :
    dropGenerics cs = cs := by
  fun_induction dropGenerics cs with
  | case1 => rfl
  | case2 rest closed _ => exact absurd (by simpa using closed) plain
  | case3 => rfl
  | case4 c rest _ ih => rw [ih fun later => plain (later.cons c)]

theorem dropArrayMarkers_eq_self {cs : List Char} (plain : ¬ ['[', ']'] <:+: cs) :
    dropArrayMarkers cs = cs := by
  rw [dropArrayMarkers, dif_neg]
  exact fun found => plain (Text.hasInfix_iff.mp found)

/-! ### Normal forms -/

/-- A text in which no pass finds anything. -/
structure IsNormal (cs : List Char) : Prop where
  noCut : '@' ∉ cs
  noMarker : ¬ ['[', ']'] <:+: cs
  /-- Behind a `<` stands no `>`, however far. -/
  noGeneric : ¬ ['<', '>'].Sublist cs

theorem isNormal_iff {cs : List Char} :
    IsNormal cs ↔ '@' ∉ cs ∧ ¬ ['[', ']'] <:+: cs ∧ ¬ ['<', '>'].Sublist cs :=
  ⟨fun normal => ⟨normal.noCut, normal.noMarker, normal.noGeneric⟩,
    fun ⟨cut, marker, generic⟩ => ⟨cut, marker, generic⟩⟩

instance : DecidablePred IsNormal := fun _ => decidable_of_iff' _ isNormal_iff

theorem isNormal_normalForm (cs : List Char) : IsNormal (normalForm cs) where
  noCut listed := by simpa using List.mem_takeWhile_imp listed
  noMarker found :=
    marker_not_infix_dropArrayMarkers _ (found.trans (List.takeWhile_prefix _).isInfix)
  noGeneric found := by
    apply generic_not_sublist_dropGenerics cs
    exact (found.trans (List.takeWhile_sublist _)).trans (dropArrayMarkers_sublist _)

theorem normalForm_eq_self {cs : List Char} (normal : IsNormal cs) : normalForm cs = cs := by
  rw [normalForm, dropGenerics_eq_self normal.noGeneric, dropArrayMarkers_eq_self normal.noMarker,
    List.takeWhile_eq_self_iff]
  intro c listed
  simpa using ne_of_mem_of_not_mem listed normal.noCut

/-- Only a normal text is its own normal form. -/
theorem normalForm_eq_self_iff {cs : List Char} : normalForm cs = cs ↔ IsNormal cs :=
  ⟨fun same => same ▸ isNormal_normalForm cs, normalForm_eq_self⟩

theorem toList_normalize (raw : String) : (normalize raw).toList = normalForm raw.toList :=
  String.toList_ofList

theorem normalize_eq_self_iff {raw : String} : normalize raw = raw ↔ IsNormal raw.toList := by
  rw [← String.toList_inj, toList_normalize, normalForm_eq_self_iff]

/-- Normalizing projects all texts onto the normal ones. It only takes characters away, what it
gives is normal, and it changes nothing in a text exactly if that is normal. -/
theorem normalize_projects :
    (∀ raw : String,
      (normalize raw).toList.Sublist raw.toList ∧
      IsNormal (normalize raw).toList ∧
      (normalize raw = raw ↔ IsNormal raw.toList) ∧
      normalize (normalize raw) = normalize raw) ∧
    Set.range normalize = {name | IsNormal name.toList} := by
  have normal (raw : String) : IsNormal (normalize raw).toList :=
    toList_normalize raw ▸ isNormal_normalForm raw.toList
  constructor
  · intro raw
    have sublist : (normalize raw).toList.Sublist raw.toList :=
      toList_normalize raw ▸ normalForm_sublist raw.toList
    exact ⟨sublist, normal raw, normalize_eq_self_iff, normalize_eq_self_iff.mpr (normal raw)⟩
  · apply Set.Subset.antisymm
    · rintro _ ⟨raw, rfl⟩
      exact normal raw
    · exact fun name isNormal => ⟨name, normalize_eq_self_iff.mpr isNormal⟩

-- What is left of nested generics is normal, for no `<` stands in front of the `>`.
example : IsNormal "Map>".toList := by decide

end JavaDiagram.TypeName
