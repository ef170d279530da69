import Mathlib.Data.List.Sort
import Mathlib.Data.String.Basic
import JavaDiagram.Model.NameSet

/-!
# Sets of names in byte order

Names are compared by code points, which agrees with comparing the bytes of their UTF-8 encodings.
A set built by insertion is strictly increasing in that order, so its members determine it.
-/

namespace JavaDiagram

/-! ### Bytes and code points -/

/-- The bytes of a name in UTF-8. -/
def utf8Bytes (name : String) : List UInt8 :=
  name.toUTF8.data.toList

theorem utf8Bytes_eq (name : String) :
    utf8Bytes name = name.toList.flatMap String.utf8EncodeChar := by
  have encoded : name.toUTF8 = name.toList.utf8Encode := String.utf8Encode_toList.symm
  rw [utf8Bytes, encoded, List.utf8Encode, List.data_toByteArray]

theorem byte_lt_byte {m n : Nat} (hm : m < 256) (hn : n < 256) :
    UInt8.ofNat m < UInt8.ofNat n ↔ m < n := by
  rw [UInt8.lt_iff_toNat_lt, UInt8.toNat_ofNat', UInt8.toNat_ofNat', Nat.mod_eq_of_lt hm,
    Nat.mod_eq_of_lt hn]

theorem byte_eq_byte {m n : Nat} (hm : m < 256) (hn : n < 256) :
    UInt8.ofNat m = UInt8.ofNat n ↔ m = n := by
  rw [← UInt8.toNat_inj, UInt8.toNat_ofNat', UInt8.toNat_ofNat', Nat.mod_eq_of_lt hm,
    Nat.mod_eq_of_lt hn]

/-- The encodings of two characters differ before either of them ends, in the characters' order. -/
theorem utf8EncodeChar_append_lt {c d : Char} (before : c < d) (as bs : List UInt8) :
    String.utf8EncodeChar c ++ as < String.utf8EncodeChar d ++ bs := by
  have less : c.val.toNat < d.val.toNat := before
  have bound : d.val.toNat < 0x110000 := by
    have valid := d.valid
    unfold UInt32.isValidChar Nat.isValidChar at valid
    omega
  unfold String.utf8EncodeChar
  dsimp only
  generalize c.val.toNat = m at less
  generalize d.val.toNat = n at less bound
  -- The first of these three numbers in which the characters differ decides.
  have first : m / 262144 < n / 262144 ∨ m / 262144 = n / 262144 := by omega
  have second : m / 4096 < n / 4096 ∨ m / 4096 = n / 4096 := by omega
  have third : m / 64 < n / 64 ∨ m / 64 = n / 64 := by omega
  split_ifs <;> try omega
  all_goals
    simp (disch := omega) only [List.cons_append, List.nil_append, List.cons_lt_cons_iff,
      byte_lt_byte, byte_eq_byte]
    rcases first with first | first <;> rcases second with second | second <;>
      rcases third with third | third <;> omega

theorem flatMap_utf8EncodeChar_lt {cs ds : List Char} (before : cs < ds) :
    cs.flatMap String.utf8EncodeChar < ds.flatMap String.utf8EncodeChar := by
  induction cs generalizing ds with
  | nil =>
    cases ds with
    | nil => exact absurd before (List.lt_irrefl [])
    | cons d ds =>
      rw [List.flatMap_nil, List.flatMap_cons]
      cases encoded : String.utf8EncodeChar d with
      | nil => exact absurd encoded String.utf8EncodeChar_ne_nil
      | cons byte rest => exact List.nil_lt_cons byte _
  | cons c cs ih =>
    cases ds with
    | nil => cases before
    | cons d ds =>
      rw [List.flatMap_cons, List.flatMap_cons]
      rcases List.cons_lt_cons_iff.mp before with less | ⟨rfl, less⟩
      · exact utf8EncodeChar_append_lt less _ _
      · exact List.append_left_lt (ih less)

/-- Names are in the order of their UTF-8 bytes. -/
theorem utf8Bytes_lt_iff {name other : String} :
    utf8Bytes name < utf8Bytes other ↔ name < other := by
  have forward {a b : String} (before : a < b) : utf8Bytes a < utf8Bytes b := by
    rw [utf8Bytes_eq, utf8Bytes_eq]
    exact flatMap_utf8EncodeChar_lt before
  -- Names are totally ordered, so one direction gives the other.
  refine ⟨fun before => ?_, forward⟩
  rcases lt_trichotomy name other with less | rfl | greater
  · exact less
  · exact absurd before (List.lt_irrefl _)
  · exact absurd (forward greater) (List.lt_asymm before)

/-! ### Sorted sets -/

namespace NameSet

/-- Strictly increasing in the order of UTF-8 bytes. -/
def Sorted (set : NameSet) : Prop :=
  set.Pairwise fun name other => utf8Bytes name < utf8Bytes other

theorem Sorted.nodup {set : NameSet} (sorted : Sorted set) : set.Nodup :=
  sorted.imp fun before same => by
    subst same
    exact List.lt_irrefl _ before

/-- The members of a sorted set determine it. -/
theorem Sorted.eq_of_mem_iff {set other : NameSet} (sorted : Sorted set) (sorted' : Sorted other)
    (same : ∀ name, name ∈ set ↔ name ∈ other) : set = other := by
  have perm := (List.perm_ext_iff_of_nodup sorted.nodup sorted'.nodup).mpr same
  exact perm.eq_of_pairwise
    (fun _ _ _ _ before after => absurd after (List.lt_asymm before)) sorted sorted'

theorem Sorted.filter {set : NameSet} (sorted : Sorted set) (test : String → Bool) :
    Sorted (List.filter test set) :=
  List.Pairwise.filter test sorted

theorem sorted_insert {set : NameSet} (name : String) (sorted : Sorted set) :
    Sorted (set.insert name) := by
  induction set with
  | nil => simp [NameSet.insert, Sorted]
  | cons head rest ih =>
    obtain ⟨below, sorted_rest⟩ := List.pairwise_cons.mp sorted
    unfold NameSet.insert
    split
    next before =>
      apply List.pairwise_cons.mpr
      refine ⟨fun other member => ?_, sorted⟩
      rcases List.mem_cons.mp member with rfl | member
      · exact utf8Bytes_lt_iff.mpr before
      · exact List.lt_trans (utf8Bytes_lt_iff.mpr before) (below other member)
    next not_before =>
      -- Not being in front leaves the same name, or one that belongs further behind.
      split
      next => exact sorted
      next different =>
        have after : head < name :=
          lt_of_le_of_ne (not_lt.mp not_before) (Ne.symm different)
        apply List.pairwise_cons.mpr
        refine ⟨fun other member => ?_, ih sorted_rest⟩
        rcases mem_insert.mp member with rfl | member
        · exact utf8Bytes_lt_iff.mpr after
        · exact below other member

theorem mem_insertAll {names : List String} {set : NameSet} {other : String} :
    other ∈ set.insertAll names ↔ other ∈ names ∨ other ∈ set := by
  induction names generalizing set with
  | nil => simp [insertAll]
  | cons name names ih =>
    have inserted : other ∈ (set.insert name).insertAll names ↔
        other ∈ names ∨ other ∈ set.insert name := ih
    rw [mem_insert, ← or_assoc, or_comm (a := other ∈ names), ← List.mem_cons] at inserted
    exact inserted

theorem sorted_insertAll {set : NameSet} (names : List String) (sorted : Sorted set) :
    Sorted (set.insertAll names) := by
  induction names generalizing set with
  | nil => exact sorted
  | cons name names ih => exact ih (sorted_insert name sorted)

end NameSet

end JavaDiagram
