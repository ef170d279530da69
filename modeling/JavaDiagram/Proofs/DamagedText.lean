import Mathlib.Data.List.Forall2
import JavaDiagram.Proofs.NameSet
import JavaDiagram.Text.Utf8

/-!
# Texts with damaged bytes

The bytes behind the first byte of a character lie in ranges that no first byte lies in. So a
character is read wherever its encoding starts, damage in front of it ends there at the latest, and
one replacement stands for each longest piece that could still have become a character.
-/

namespace JavaDiagram.Utf8

/-! ### The bytes of a character -/

/-- A lowest and a highest byte. -/
abbrev Bounds := UInt8 × UInt8

/-- Whether a byte lies between two bounds. -/
def Bounds.Hold (bounds : Bounds) (b : UInt8) : Prop :=
  bounds.1 ≤ b ∧ b ≤ bounds.2

instance (bounds : Bounds) (b : UInt8) : Decidable (bounds.Hold b) :=
  inferInstanceAs (Decidable (_ ∧ _))

/-- The bounds of a byte about which the bytes in front of it say nothing more. -/
def anyTail : Bounds := (0x80, 0xBF)

/-- The bounds of the bytes that follow a first byte; none if no character starts with it. -/
def tailBounds (first : UInt8) : Option (List Bounds) :=
  if first < 0x80 then some []
  else if first < 0xC2 then none
  else if first < 0xE0 then some [anyTail]
  else if first < 0xF0 then some [secondBounds first, anyTail]
  else if first < 0xF5 then some [secondBounds first, anyTail, anyTail]
  else none

/-- The code point that a first byte and the bytes behind it stand for. -/
def codePoint (first : UInt8) : List UInt8 → Nat
  | [] => first.toNat
  | [b] => first.toNat % 32 * 64 + payload b
  | [b, c] => first.toNat % 16 * 4096 + payload b * 64 + payload c
  | b :: c :: d :: _ =>
    first.toNat % 8 * 262144 + payload b * 4096 + payload c * 64 + payload d

theorem anyTail_hold_iff {b : UInt8} : anyTail.Hold b ↔ 0x80 ≤ b.toNat ∧ b.toNat ≤ 0xBF :=
  Iff.rfl

theorem secondBounds_hold_iff {first b : UInt8} :
    Bounds.Hold (secondBounds first) b ↔ (0x80 ≤ b.toNat ∧ b.toNat ≤ 0xBF) ∧
      (first.toNat = 0xE0 → 0xA0 ≤ b.toNat) ∧ (first.toNat = 0xED → b.toNat ≤ 0x9F) ∧
      (first.toNat = 0xF0 → 0x90 ≤ b.toNat) ∧ (first.toNat = 0xF4 → b.toNat ≤ 0x8F) := by
  unfold secondBounds Bounds.Hold
  simp only [beq_iff_eq, ← UInt8.toNat_inj, UInt8.le_iff_toNat_le, UInt8.reduceToNat]
  split_ifs <;> simp only [UInt8.reduceToNat] <;> omega

theorem toNat_byte {n : Nat} (small : n < 256) : (UInt8.ofNat n).toNat = n :=
  (UInt8.toNat_ofNat' (n := n)).trans (Nat.mod_eq_of_lt small)

theorem byte_eq_iff {n : Nat} {b : UInt8} (small : n < 256) : UInt8.ofNat n = b ↔ n = b.toNat := by
  rw [← UInt8.toNat_inj, toNat_byte small]

theorem toNat_val_ofNat {n : Nat} (valid : n.isValidChar) : (Char.ofNat n).val.toNat = n := by
  rw [Char.ofNat, dif_pos valid]
  exact UInt32.toNat_ofNatLT

/-! The encodings of characters by the number of their bytes. -/

section Encoding

variable {c : Char}

theorem utf8EncodeChar_one (high : c.val.toNat < 0x80) :
    String.utf8EncodeChar c = [UInt8.ofNat c.val.toNat] := by
  unfold String.utf8EncodeChar
  dsimp only
  rw [if_pos (by omega)]

theorem utf8EncodeChar_two (low : 0x80 ≤ c.val.toNat) (high : c.val.toNat < 0x800) :
    String.utf8EncodeChar c =
      [UInt8.ofNat (c.val.toNat / 64 % 32 + 0xC0), UInt8.ofNat (c.val.toNat % 64 + 0x80)] := by
  unfold String.utf8EncodeChar
  dsimp only
  rw [if_neg (by omega), if_pos (by omega)]

theorem utf8EncodeChar_three (low : 0x800 ≤ c.val.toNat) (high : c.val.toNat < 0x10000) :
    String.utf8EncodeChar c =
      [UInt8.ofNat (c.val.toNat / 4096 % 16 + 0xE0), UInt8.ofNat (c.val.toNat / 64 % 64 + 0x80),
        UInt8.ofNat (c.val.toNat % 64 + 0x80)] := by
  unfold String.utf8EncodeChar
  dsimp only
  rw [if_neg (by omega), if_neg (by omega), if_pos (by omega)]

theorem utf8EncodeChar_four (low : 0x10000 ≤ c.val.toNat) :
    String.utf8EncodeChar c =
      [UInt8.ofNat (c.val.toNat / 262144 % 8 + 0xF0), UInt8.ofNat (c.val.toNat / 4096 % 64 + 0x80),
        UInt8.ofNat (c.val.toNat / 64 % 64 + 0x80), UInt8.ofNat (c.val.toNat % 64 + 0x80)] := by
  unfold String.utf8EncodeChar
  dsimp only
  rw [if_neg (by omega), if_neg (by omega), if_neg (by omega)]

end Encoding

/-- Bytes within their bounds are the encoding of their code point. -/
theorem utf8EncodeChar_codePoint {first : UInt8} {bounds : List Bounds} {tail : List UInt8}
    (opens : tailBounds first = some bounds) (fits : List.Forall₂ Bounds.Hold bounds tail) :
    String.utf8EncodeChar (Char.ofNat (codePoint first tail)) = first :: tail := by
  have number (valid : (codePoint first tail).isValidChar) := toNat_val_ofNat valid
  generalize Char.ofNat (codePoint first tail) = char at number ⊢
  unfold tailBounds at opens
  simp only [UInt8.lt_iff_toNat_lt, UInt8.reduceToNat] at opens
  split_ifs at opens with one _ two three four <;> cases opens
  · cases fits
    simp only [codePoint, Nat.isValidChar] at number
    rw [utf8EncodeChar_one (by omega), number (by omega), UInt8.ofNat_toNat]
  · obtain ⟨b, _, second, ⟨⟩, rfl⟩ := List.forall₂_cons_left_iff.mp fits
    rw [anyTail_hold_iff] at second
    simp only [codePoint, payload, Nat.isValidChar] at number
    rw [utf8EncodeChar_two (by omega) (by omega), number (by omega)]
    simp (disch := omega) only [List.cons.injEq, byte_eq_iff, and_true]
    omega
  · obtain ⟨b, _, second, later, rfl⟩ := List.forall₂_cons_left_iff.mp fits
    obtain ⟨c, _, third, ⟨⟩, rfl⟩ := List.forall₂_cons_left_iff.mp later
    rw [secondBounds_hold_iff] at second
    rw [anyTail_hold_iff] at third
    simp only [codePoint, payload, Nat.isValidChar] at number
    rw [utf8EncodeChar_three (by omega) (by omega), number (by omega)]
    simp (disch := omega) only [List.cons.injEq, byte_eq_iff, and_true]
    omega
  · obtain ⟨b, _, second, later, rfl⟩ := List.forall₂_cons_left_iff.mp fits
    obtain ⟨c, _, third, last, rfl⟩ := List.forall₂_cons_left_iff.mp later
    obtain ⟨d, _, fourth, ⟨⟩, rfl⟩ := List.forall₂_cons_left_iff.mp last
    rw [secondBounds_hold_iff] at second
    rw [anyTail_hold_iff] at third fourth
    simp only [codePoint, payload, Nat.isValidChar] at number
    rw [utf8EncodeChar_four (by omega), number (by omega)]
    simp (disch := omega) only [List.cons.injEq, byte_eq_iff, and_true]
    omega

theorem anyTail_hold_byte (n : Nat) : anyTail.Hold (UInt8.ofNat (n % 64 + 0x80)) := by
  rw [anyTail_hold_iff, toNat_byte (by omega)]
  omega

/-- The bytes of a character lie within their bounds. -/
theorem exists_bounds {c : Char} {first : UInt8} {tail : List UInt8}
    (encoded : String.utf8EncodeChar c = first :: tail) :
    ∃ bounds, tailBounds first = some bounds ∧ List.Forall₂ Bounds.Hold bounds tail := by
  have valid := c.valid
  unfold UInt32.isValidChar Nat.isValidChar at valid
  unfold tailBounds
  simp only [UInt8.lt_iff_toNat_lt, UInt8.reduceToNat]
  rcases Nat.lt_or_ge c.val.toNat 0x80 with high | low
  · obtain ⟨rfl, rfl⟩ := List.cons.inj ((utf8EncodeChar_one high).symm.trans encoded)
    rw [toNat_byte (by omega), if_pos (by omega)]
    exact ⟨[], rfl, .nil⟩
  rcases Nat.lt_or_ge c.val.toNat 0x800 with high | low
  · obtain ⟨rfl, rfl⟩ := List.cons.inj ((utf8EncodeChar_two low high).symm.trans encoded)
    rw [toNat_byte (by omega), if_neg (by omega), if_neg (by omega), if_pos (by omega)]
    exact ⟨_, rfl, .cons (anyTail_hold_byte _) .nil⟩
  rcases Nat.lt_or_ge c.val.toNat 0x10000 with high | low
  · obtain ⟨rfl, rfl⟩ := List.cons.inj ((utf8EncodeChar_three low high).symm.trans encoded)
    rw [toNat_byte (by omega), if_neg (by omega), if_neg (by omega), if_neg (by omega),
      if_pos (by omega)]
    refine ⟨_, rfl, .cons (secondBounds_hold_iff.mpr ?_) (.cons (anyTail_hold_byte _) .nil)⟩
    rw [toNat_byte (by omega), toNat_byte (by omega)]
    omega
  · obtain ⟨rfl, rfl⟩ := List.cons.inj ((utf8EncodeChar_four low).symm.trans encoded)
    rw [toNat_byte (by omega), if_neg (by omega), if_neg (by omega), if_neg (by omega),
      if_neg (by omega), if_pos (by omega)]
    refine ⟨_, rfl, .cons (secondBounds_hold_iff.mpr ?_)
      (.cons (anyTail_hold_byte _) (.cons (anyTail_hold_byte _) .nil))⟩
    rw [toNat_byte (by omega), toNat_byte (by omega)]
    omega

/-- All bounds of later bytes lie where no first byte does. -/
theorem bounds_within {first : UInt8} {bounds : List Bounds}
    (opens : tailBounds first = some bounds) :
    ∀ bound ∈ bounds, 0x80 ≤ bound.1.toNat ∧ bound.1 ≤ bound.2 ∧ bound.2.toNat ≤ 0xBF := by
  have second : 0x80 ≤ (secondBounds first).1.toNat ∧
      (secondBounds first).1 ≤ (secondBounds first).2 ∧ (secondBounds first).2.toNat ≤ 0xBF := by
    unfold secondBounds
    split_ifs <;> decide
  have later : 0x80 ≤ anyTail.1.toNat ∧ anyTail.1 ≤ anyTail.2 ∧ anyTail.2.toNat ≤ 0xBF := by decide
  unfold tailBounds at opens
  split_ifs at opens <;> cases opens <;> simp [second, later]

/-! ### Reading one character -/

/-- How many of the bytes in front lie within their bounds. -/
def fitting : List Bounds → List UInt8 → Nat
  | bound :: bounds, b :: rest => if bound.Hold b then fitting bounds rest + 1 else 0
  | _, _ => 0

theorem next_nil (low high : UInt8) : next low high [] = none :=
  rfl

theorem next_cons (bounds : Bounds) (b : UInt8) (rest : List UInt8) :
    next bounds.1 bounds.2 (b :: rest) = if bounds.Hold b then some b else none := by
  unfold next
  exact if_congr (by simp [Bounds.Hold]) rfl rfl

theorem next_cons_anyTail (b : UInt8) (rest : List UInt8) :
    next 0x80 0xBF (b :: rest) = if anyTail.Hold b then some b else none :=
  next_cons anyTail b rest

theorem readChar_of_none {first : UInt8} (closed : tailBounds first = none) (rest : List UInt8) :
    readChar first rest = (replacement, 0) := by
  unfold tailBounds at closed
  unfold readChar
  dsimp only
  split_ifs at closed with one unused two three four
  · rw [if_neg one, if_pos unused]
  · rw [if_neg one, if_neg unused, if_neg two, if_neg three, if_neg four]

/-- A character is read if all bytes behind the first one lie within their bounds; what lies within
them is replaced if not. -/
theorem readChar_of_some {first : UInt8} {bounds : List Bounds}
    (opens : tailBounds first = some bounds) (rest : List UInt8) :
    readChar first rest =
      if fitting bounds rest = bounds.length then
        (Char.ofNat (codePoint first (rest.take bounds.length)), bounds.length)
      else (replacement, fitting bounds rest) := by
  unfold tailBounds at opens
  unfold readChar
  dsimp only
  split_ifs at opens with one unused two three four <;> cases opens
  · rw [if_pos one]
    rfl
  · rw [if_neg one, if_neg unused, if_pos two]
    cases rest with
    | nil => rfl
    | cons b rest =>
      rw [next_cons_anyTail]
      by_cases second : anyTail.Hold b <;> simp [fitting, codePoint, second]
  · rw [if_neg one, if_neg unused, if_neg two, if_pos three]
    rcases rest with _ | ⟨b, _ | ⟨c, rest⟩⟩
    · rfl
    · rw [next_cons]
      by_cases second : Bounds.Hold (secondBounds first) b <;> simp [fitting, second, next_nil]
    · rw [next_cons, List.drop_one, List.tail_cons, next_cons_anyTail]
      by_cases second : Bounds.Hold (secondBounds first) b <;>
        by_cases third : anyTail.Hold c <;> simp [fitting, codePoint, second, third]
  · rw [if_neg one, if_neg unused, if_neg two, if_neg three, if_pos four]
    rcases rest with _ | ⟨b, _ | ⟨c, _ | ⟨d, rest⟩⟩⟩
    · rfl
    · rw [next_cons]
      by_cases second : Bounds.Hold (secondBounds first) b <;> simp [fitting, second, next_nil]
    · rw [next_cons, List.drop_one, List.tail_cons, next_cons_anyTail]
      by_cases second : Bounds.Hold (secondBounds first) b <;>
        by_cases third : anyTail.Hold c <;> simp [fitting, second, third, next_nil]
    · rw [next_cons, List.drop_one, List.tail_cons, next_cons_anyTail, List.drop_succ_cons,
        List.drop_one, List.tail_cons, next_cons_anyTail]
      by_cases second : Bounds.Hold (secondBounds first) b <;>
        by_cases third : anyTail.Hold c <;> by_cases fourth : anyTail.Hold d <;>
          simp [fitting, codePoint, second, third, fourth]

theorem fitting_le (bounds : List Bounds) (rest : List UInt8) :
    fitting bounds rest ≤ bounds.length ∧ fitting bounds rest ≤ rest.length := by
  fun_induction fitting bounds rest with
  | case1 bound bounds b rest inside ih => simpa using ih
  | case2 => simp
  | case3 => simp

theorem fits_of_fitting {bounds : List Bounds} {rest : List UInt8}
    (whole : fitting bounds rest = bounds.length) :
    List.Forall₂ Bounds.Hold bounds (rest.take bounds.length) := by
  fun_induction fitting bounds rest with
  | case1 bound bounds b rest inside ih => exact .cons inside (ih (Nat.succ.inj whole))
  | case2 => simp at whole
  | case3 bounds rest short =>
    rw [List.length_eq_zero_iff.mp whole.symm]
    exact .nil

theorem fits_lowest {bounds : List Bounds} (filled : ∀ bound ∈ bounds, bound.1 ≤ bound.2) :
    List.Forall₂ Bounds.Hold bounds (bounds.map Prod.fst) :=
  List.forall₂_map_right_iff.mpr
    (List.forall₂_same.mpr fun bound listed => ⟨UInt8.le_refl _, filled bound listed⟩)

/-- The fitting bytes can be completed within the bounds. -/
theorem exists_completion {bounds : List Bounds} (filled : ∀ bound ∈ bounds, bound.1 ≤ bound.2)
    (rest : List UInt8) :
    ∃ tail, List.Forall₂ Bounds.Hold bounds tail ∧ rest.take (fitting bounds rest) <+: tail := by
  fun_induction fitting bounds rest with
  | case1 bound bounds b rest inside ih =>
    obtain ⟨tail, fits, front⟩ := ih fun other listed =>
      filled other (List.mem_cons_of_mem _ listed)
    exact ⟨b :: tail, .cons inside fits, (List.prefix_cons_inj b).mpr front⟩
  | case2 => exact ⟨_, fits_lowest filled, List.nil_prefix⟩
  | case3 => exact ⟨_, fits_lowest filled, List.nil_prefix⟩

/-- Bytes that stand in front and begin what lies within the bounds are fitting. -/
theorem length_le_fitting {bounds : List Bounds} {tail part rest : List UInt8}
    (fits : List.Forall₂ Bounds.Hold bounds tail) (opens : part <+: tail) (front : part <+: rest) :
    part.length ≤ fitting bounds rest := by
  induction fits generalizing part rest with
  | nil => simp [List.prefix_nil.mp opens]
  | @cons bound b bounds tail inside _ ih =>
    cases part with
    | nil => simp
    | cons first part =>
      obtain ⟨rfl, later⟩ := List.cons_prefix_cons.mp opens
      obtain ⟨more, rfl⟩ := front
      simpa [fitting, inside] using ih later (List.prefix_append part more)

/-! ### Damage -/

/-- Whether bytes are one piece of damage in front of others: no character can be read there, and
the piece is the longest one that some character starts with, or one byte if there is none. -/
structure IsDamage (piece rest : List UInt8) : Prop where
  filled : piece ≠ []
  unreadable : ∀ c, ¬ String.utf8EncodeChar c <+: piece ++ rest
  opens : piece.length = 1 ∨ ∃ c, piece <+: String.utf8EncodeChar c
  longest : ∀ part c, part <+: piece ++ rest → part <+: String.utf8EncodeChar c →
    part.length ≤ piece.length

/-- What bytes stand for: characters, and a replacement for each piece of damage. -/
inductive Decodes : List UInt8 → List Char → Prop where
  | done : Decodes [] []
  | char {rest : List UInt8} {cs : List Char} (c : Char) :
      Decodes rest cs → Decodes (String.utf8EncodeChar c ++ rest) (c :: cs)
  | damage {piece rest : List UInt8} {cs : List Char} :
      IsDamage piece rest → Decodes rest cs → Decodes (piece ++ rest) (replacement :: cs)

theorem IsDamage.length_le {piece rest other more : List UInt8} (damage : IsDamage piece rest)
    (damage' : IsDamage other more) (same : piece ++ rest = other ++ more) :
    piece.length ≤ other.length := by
  rcases damage.opens with single | ⟨c, opens⟩
  · rw [single]
    exact List.length_pos_iff.mpr damage'.filled
  · exact damage'.longest piece c (same ▸ List.prefix_append piece rest) opens

/-- Where a piece of damage starts, there is only one. -/
theorem IsDamage.unique {piece rest other more : List UInt8} (damage : IsDamage piece rest)
    (damage' : IsDamage other more) (same : piece ++ rest = other ++ more) :
    piece = other ∧ rest = more :=
  List.append_inj same
    (Nat.le_antisymm (damage.length_le damage' same) (damage'.length_le damage same.symm))

/-- Bytes begin with at most one character. -/
theorem eq_of_utf8EncodeChar_prefix {c d : Char} {bytes : List UInt8}
    (front : String.utf8EncodeChar c <+: bytes) (front' : String.utf8EncodeChar d <+: bytes) :
    c = d := by
  obtain ⟨rest, same⟩ := front
  obtain ⟨more, same'⟩ := front'
  rcases lt_trichotomy c d with before | rfl | after
  · have less := utf8EncodeChar_append_lt before rest more
    rw [same, same'] at less
    exact absurd less (List.lt_irrefl _)
  · rfl
  · have less := utf8EncodeChar_append_lt after more rest
    rw [same, same'] at less
    exact absurd less (List.lt_irrefl _)

theorem isDamage_of_short {first : UInt8} {rest : List UInt8} {count : Nat}
    (within : count ≤ rest.length)
    (opens : count = 0 ∨ ∃ c, first :: rest.take count <+: String.utf8EncodeChar c)
    (short : ∀ c tail, String.utf8EncodeChar c = first :: tail → count < tail.length ∧
      ∀ part, part <+: tail → part <+: rest → part.length ≤ count) :
    IsDamage (first :: rest.take count) (rest.drop count) := by
  have whole : first :: rest.take count ++ rest.drop count = first :: rest := by simp
  have size : (first :: rest.take count).length = count + 1 := by simp [within]
  have longest (part : List UInt8) (c : Char) (front : part <+: first :: rest)
      (begins : part <+: String.utf8EncodeChar c) : part.length ≤ count + 1 := by
    cases part with
    | nil => simp
    | cons b part =>
      obtain ⟨rfl, later⟩ := List.cons_prefix_cons.mp front
      obtain ⟨tail, encoded, opening⟩ := List.cons_prefix_iff.mp begins
      simpa using (short c tail encoded).2 part opening later
  constructor
  · simp
  · intro c front
    rw [whole] at front
    obtain ⟨_, tail, encoded⟩ :=
      List.exists_cons_of_ne_nil (String.utf8EncodeChar_ne_nil (c := c))
    have bounded := longest _ c front List.prefix_rfl
    rw [encoded] at front bounded
    obtain ⟨rfl, -⟩ := List.cons_prefix_cons.mp front
    have longer := (short c tail encoded).1
    rw [List.length_cons] at bounded
    omega
  · exact opens.imp (fun single => by simp [single]) id
  · rw [whole, size]
    exact longest

/-- One step reads a character or replaces a piece of damage. -/
theorem readChar_cases (first : UInt8) (rest : List UInt8) :
    (∃ c tail more, rest = tail ++ more ∧ String.utf8EncodeChar c = first :: tail ∧
      readChar first rest = (c, tail.length)) ∨
    ∃ count, IsDamage (first :: rest.take count) (rest.drop count) ∧
      readChar first rest = (replacement, count) := by
  cases opens : tailBounds first with
  | none =>
    refine Or.inr ⟨0, isDamage_of_short (Nat.zero_le _) (Or.inl rfl) ?_,
      readChar_of_none opens rest⟩
    intro c tail encoded
    obtain ⟨bounds, opens', _⟩ := exists_bounds encoded
    rw [opens] at opens'
    cases opens'
  | some bounds =>
    have read := readChar_of_some opens rest
    split at read
    next whole =>
      have fits := fits_of_fitting whole
      refine Or.inl ⟨_, rest.take bounds.length, rest.drop bounds.length, by simp,
        utf8EncodeChar_codePoint opens fits, ?_⟩
      rw [read, ← fits.length_eq]
    next partly =>
      obtain ⟨atMost, within⟩ := fitting_le bounds rest
      refine Or.inr ⟨_, isDamage_of_short within (Or.inr ?_) ?_, read⟩
      · obtain ⟨tail, fits, front⟩ := exists_completion
          (fun bound listed => (bounds_within opens bound listed).2.1) rest
        refine ⟨Char.ofNat (codePoint first tail), ?_⟩
        rw [utf8EncodeChar_codePoint opens fits]
        exact (List.prefix_cons_inj first).mpr front
      · intro c tail encoded
        obtain ⟨bounds', opens', fits⟩ := exists_bounds encoded
        cases opens.symm.trans opens'
        refine ⟨?_, fun part begins front => length_le_fitting fits begins front⟩
        rw [← fits.length_eq]
        omega

/-- Decoding reads a character or replaces a piece of damage, and goes on behind it. -/
theorem decodeChars_cases {bytes : List UInt8} (filled : bytes ≠ []) :
    (∃ c rest, bytes = String.utf8EncodeChar c ++ rest ∧
      decodeChars bytes = c :: decodeChars rest) ∨
    ∃ piece rest, bytes = piece ++ rest ∧ IsDamage piece rest ∧
      decodeChars bytes = replacement :: decodeChars rest := by
  obtain ⟨first, rest, rfl⟩ := List.exists_cons_of_ne_nil filled
  rcases readChar_cases first rest with ⟨c, tail, more, rfl, encoded, read⟩ | ⟨count, damage, read⟩
  · refine Or.inl ⟨c, more, by rw [encoded, List.cons_append], ?_⟩
    rw [decodeChars, read]
    dsimp only
    rw [List.drop_left]
  · refine Or.inr ⟨_, rest.drop count, by simp, damage, ?_⟩
    rw [decodeChars, read]

theorem decodeChars_char (c : Char) (rest : List UInt8) :
    decodeChars (String.utf8EncodeChar c ++ rest) = c :: decodeChars rest := by
  have filled : String.utf8EncodeChar c ++ rest ≠ [] :=
    List.append_ne_nil_of_left_ne_nil String.utf8EncodeChar_ne_nil rest
  have front := List.prefix_append (String.utf8EncodeChar c) rest
  rcases decodeChars_cases filled with ⟨d, more, same, decoded⟩ | ⟨piece, more, same, damage, _⟩
  · obtain rfl := eq_of_utf8EncodeChar_prefix front (same ▸ List.prefix_append _ more)
    rw [decoded, List.append_cancel_left same]
  · exact absurd (same ▸ front) (damage.unreadable c)

theorem decodeChars_damage {piece rest : List UInt8} (damage : IsDamage piece rest) :
    decodeChars (piece ++ rest) = replacement :: decodeChars rest := by
  have filled : piece ++ rest ≠ [] := List.append_ne_nil_of_left_ne_nil damage.filled rest
  rcases decodeChars_cases filled with ⟨c, more, same, _⟩ | ⟨other, more, same, damage', decoded⟩
  · exact absurd (same ▸ List.prefix_append _ more) (damage.unreadable c)
  · rw [decoded, (damage.unique damage' same).2]

theorem decodes_decodeChars (bytes : List UInt8) : Decodes bytes (decodeChars bytes) := by
  by_cases filled : bytes = []
  · rw [filled, decodeChars]
    exact .done
  rcases decodeChars_cases filled with ⟨c, rest, same, decoded⟩ |
    ⟨piece, rest, same, damage, decoded⟩
  · have shorter : rest.length < bytes.length := by
      have := List.length_pos_iff.mpr (String.utf8EncodeChar_ne_nil (c := c))
      rw [same, List.length_append]
      omega
    rw [decoded, same]
    exact .char c (decodes_decodeChars rest)
  · have shorter : rest.length < bytes.length := by
      have := List.length_pos_iff.mpr damage.filled
      rw [same, List.length_append]
      omega
    rw [decoded, same]
    exact .damage damage (decodes_decodeChars rest)
  termination_by bytes.length

/-- Bytes decode to one text only. -/
theorem decodes_iff {bytes : List UInt8} {cs : List Char} :
    Decodes bytes cs ↔ decodeChars bytes = cs := by
  constructor
  · intro decodes
    induction decodes with
    | done => rw [decodeChars]
    | char c _ ih => rw [decodeChars_char, ih]
    | damage damage _ ih => rw [decodeChars_damage damage, ih]
  · rintro rfl
    exact decodes_decodeChars bytes

/-! ### Texts around damage -/

theorem exists_bound_of_mem {bounds : List Bounds} {tail : List UInt8} {b : UInt8}
    (fits : List.Forall₂ Bounds.Hold bounds tail) (listed : b ∈ tail) :
    ∃ bound ∈ bounds, bound.Hold b := by
  induction fits with
  | nil => cases listed
  | @cons bound other bounds tail inside _ ih =>
    rcases List.mem_cons.mp listed with rfl | listed
    · exact ⟨bound, List.mem_cons_self, inside⟩
    · obtain ⟨bound, listed, inside⟩ := ih listed
      exact ⟨bound, List.mem_cons_of_mem _ listed, inside⟩

/-- A byte behind the first one of a character starts no character. -/
theorem utf8EncodeChar_ne_of_mem_tail {c d : Char} {first b : UInt8} {tail rest : List UInt8}
    (encoded : String.utf8EncodeChar c = first :: tail) (listed : b ∈ tail) :
    String.utf8EncodeChar d ≠ b :: rest := by
  intro starts
  obtain ⟨bounds, opens, fits⟩ := exists_bounds encoded
  obtain ⟨_, opens', _⟩ := exists_bounds starts
  obtain ⟨bound, listed', inside⟩ := exists_bound_of_mem fits listed
  obtain ⟨low, -, high⟩ := bounds_within opens bound listed'
  have above : 0x80 ≤ b.toNat := Nat.le_trans low inside.1
  have below : b.toNat ≤ 0xBF := Nat.le_trans inside.2 high
  unfold tailBounds at opens'
  simp only [UInt8.lt_iff_toNat_lt, UInt8.reduceToNat] at opens'
  rw [if_neg (by omega), if_pos (by omega)] at opens'
  cases opens'

/-- What begins a character ends in front of a text, unless it starts with it. -/
theorem prefix_of_prefix_append {front part : List UInt8} {text : List Char} {c : Char}
    (filled : front ≠ []) (begins : part <+: front ++ text.flatMap String.utf8EncodeChar)
    (opens : part <+: String.utf8EncodeChar c) : part <+: front := by
  rcases List.prefix_or_prefix_of_prefix begins (List.prefix_append front _) with within | beyond
  · exact within
  obtain ⟨more, rfl⟩ := beyond
  cases more with
  | nil => simp
  | cons b more =>
    -- The text starts with a first byte, which stands behind the first one of the character.
    obtain ⟨first, others, rfl⟩ := List.exists_cons_of_ne_nil filled
    obtain ⟨last, encoded⟩ := opens
    have starts := (List.prefix_append_right_inj _).mp begins
    cases text with
    | nil => simp at starts
    | cons d text =>
      obtain ⟨b', rest, encoded'⟩ :=
        List.exists_cons_of_ne_nil (String.utf8EncodeChar_ne_nil (c := d))
      rw [List.flatMap_cons, encoded', List.cons_append, List.cons_prefix_cons] at starts
      rw [← starts.1] at encoded'
      refine absurd encoded' (utf8EncodeChar_ne_of_mem_tail encoded.symm ?_)
      simp

theorem IsDamage.append {piece rest : List UInt8} (damage : IsDamage piece rest)
    (text : List Char) : IsDamage piece (rest ++ text.flatMap String.utf8EncodeChar) := by
  have filled : piece ++ rest ≠ [] := List.append_ne_nil_of_left_ne_nil damage.filled rest
  constructor
  · exact damage.filled
  · intro c front
    rw [← List.append_assoc] at front
    exact damage.unreadable c (prefix_of_prefix_append filled front List.prefix_rfl)
  · exact damage.opens
  · intro part c front begins
    rw [← List.append_assoc] at front
    exact damage.longest part c (prefix_of_prefix_append filled front begins) begins

theorem Decodes.text (text : List Char) :
    Decodes (text.flatMap String.utf8EncodeChar) text := by
  induction text with
  | nil => exact .done
  | cons c text ih => exact .char c ih

theorem Decodes.append {bytes : List UInt8} {cs : List Char} (decodes : Decodes bytes cs)
    (text : List Char) :
    Decodes (bytes ++ text.flatMap String.utf8EncodeChar) (cs ++ text) := by
  induction decodes with
  | done => exact .text text
  | char c _ ih =>
    rw [List.append_assoc]
    exact .char c ih
  | damage damage _ ih =>
    rw [List.append_assoc]
    exact .damage (damage.append text) ih

theorem Decodes.prepend {bytes : List UInt8} {cs : List Char} (decodes : Decodes bytes cs)
    (text : List Char) :
    Decodes (text.flatMap String.utf8EncodeChar ++ bytes) (text ++ cs) := by
  induction text with
  | nil => exact decodes
  | cons c text ih =>
    rw [List.flatMap_cons, List.append_assoc]
    exact .char c ih

theorem decode_eq_iff {bytes : List UInt8} {text : String} :
    decode bytes = text ↔ Decodes bytes text.toList := by
  rw [decodes_iff, decode, ← String.toList_inj, String.toList_ofList]

/-- What is read without damage is the text that the bytes encode. -/
theorem eq_utf8Bytes_of_fromUTF8? {bytes : List UInt8} {text : String}
    (valid : String.fromUTF8? ⟨bytes.toArray⟩ = some text) : bytes = utf8Bytes text := by
  unfold String.fromUTF8? at valid
  split_ifs at valid
  cases valid
  rfl

/-- Damaged bytes between two texts leave both texts whole and are decoded as they are alone. So
undamaged bytes are decoded to the text that they encode, as a reader that refuses damage does it,
and what was decoded once is decoded to itself. One replacement stands for each piece of damage. -/
theorem decode_around_damage :
    (∀ (front back : String) (bytes : List UInt8),
      decode (utf8Bytes front ++ bytes ++ utf8Bytes back) = front ++ decode bytes ++ back) ∧
    (∀ text : String, decode (utf8Bytes text) = text) ∧
    (∀ bytes : List UInt8, (String.fromUTF8? ⟨bytes.toArray⟩).getD (decode bytes) = decode bytes) ∧
    (∀ bytes : List UInt8, decode (utf8Bytes (decode bytes)) = decode bytes) ∧
    ∀ (bytes : List UInt8) (text : String), decode bytes = text ↔ Decodes bytes text.toList := by
  have whole (text : String) : decode (utf8Bytes text) = text := by
    rw [decode_eq_iff, utf8Bytes_eq]
    exact .text text.toList
  refine ⟨fun front back bytes => ?_, whole, fun bytes => ?_, fun bytes => whole (decode bytes),
    fun bytes text => decode_eq_iff⟩
  · rw [decode_eq_iff, utf8Bytes_eq, utf8Bytes_eq, String.toList_append, String.toList_append]
    exact ((decode_eq_iff.mp rfl).prepend front.toList).append back.toList
  · cases strict : String.fromUTF8? ⟨bytes.toArray⟩ with
    | none => rfl
    | some text =>
      rw [Option.getD_some, eq_utf8Bytes_of_fromUTF8? strict, whole]

-- An overlong form is damage byte by byte, and a character that is cut off is damage as a whole.
example : decode [0x61, 0xE0, 0x80, 0xF0, 0x9F, 0x98, 0xC3, 0xA9] = "a\uFFFD\uFFFD\uFFFDé" := by
  decide +kernel

end JavaDiagram.Utf8
