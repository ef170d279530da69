import Mathlib.Data.List.Induction
import Mathlib.Data.List.Pairwise
import JavaDiagram.Java.Rule
import JavaDiagram.Proofs.Placement

/-!
# Where lexemes lie

Each lexeme of a source starts where the one in front of it stops, on the line of its first
character. Blanks are passed over, and the comments and tokens that are left keep their order.
-/

namespace JavaDiagram.Java

variable {source : SourceText}

theorem SourceText.lineAt_length {front back : List Char} (cut : source.toList = front ++ back) :
    source.lineAt front.length = 1 + front.count '\n' := by
  rw [lineAt, cut, List.take_left]

/-- Whether an extent is a part of a source. -/
structure Extent.IsPart (source : SourceText) (extent : Extent) : Prop where
  proper : extent.start ≤ extent.stop
  inside : extent.stop ≤ source.size
  line : extent.line = source.lineAt extent.start

/-- Whether no extent starts before an earlier one has stopped. -/
def AreApart (extents : List Extent) : Prop :=
  extents.Pairwise fun first second => first.stop ≤ second.start

/-! ### Cutting a source -/

/-- The lexemes of the rest of a source lie behind what is in front of it, and the lines go on
behind each of them. -/
theorem lexemesFrom_placed (position line : Nat) (strings : List OpenString) (cs : List Char) :
    ∀ front : List Char, source.toList = front ++ cs → position = front.length →
    line = source.lineAt position →
    AreApart ((lexemesFrom position line strings cs).map (·.extent)) ∧
      ∀ lexeme ∈ lexemesFrom position line strings cs,
        position ≤ lexeme.extent.start ∧ lexeme.extent.IsPart source ∧
          lexeme.extent.line + lexeme.chars.count '\n' = source.lineAt lexeme.extent.stop := by
  fun_induction lexemesFrom position line strings cs with
  | case1 => exact fun _ _ _ _ => ⟨List.Pairwise.nil, List.forall_mem_nil _⟩
  | case2 position line strings c rest found more chars stop ih =>
    intro front cut here known
    -- The lexeme goes over to what is in front of the rest.
    have parts : source.toList = (front ++ chars) ++ rest.drop more := by
      rw [cut, List.append_assoc, List.cons_append, List.take_append_drop]
    have there : stop = (front ++ chars).length := by
      rw [List.length_append, ← here]
    have behind : line + chars.count '\n' = source.lineAt stop := by
      rw [known, here, SourceText.lineAt_length cut, there, SourceText.lineAt_length parts,
        List.count_append, Nat.add_assoc]
    have inside : stop ≤ source.size := by
      have size := congrArg List.length parts
      rw [List.length_append, ← there, Array.length_toList] at size
      omega
    obtain ⟨apart, placed⟩ := ih _ parts there behind
    constructor
    · rw [List.map_cons, AreApart, List.pairwise_cons]
      refine ⟨fun extent listed => ?_, apart⟩
      obtain ⟨lexeme, member, rfl⟩ := List.mem_map.mp listed
      exact (placed lexeme member).1
    · rw [List.forall_mem_cons]
      refine ⟨⟨Nat.le_refl _, ⟨Nat.le_add_right _ _, inside, known⟩, behind⟩, ?_⟩
      intro lexeme listed
      obtain ⟨start, rest⟩ := placed lexeme listed
      exact ⟨Nat.le_trans (Nat.le_add_right _ _) start, rest⟩

theorem lexemes_placed (cs : List Char) :
    AreApart ((lexemes cs).map (·.extent)) ∧
      ∀ lexeme ∈ lexemes cs, lexeme.extent.IsPart cs.toArray ∧
        lexeme.extent.line + lexeme.chars.count '\n' =
          SourceText.lineAt cs.toArray lexeme.extent.stop := by
  unfold lexemes
  split
  next rest =>
    -- The byte order mark is no line feed.
    have mark : 1 = SourceText.lineAt ('\uFEFF' :: rest).toArray 1 := by
      simp [SourceText.lineAt]
    obtain ⟨apart, placed⟩ := lexemesFrom_placed 1 1 [] rest ['\uFEFF'] rfl rfl mark
    exact ⟨apart, fun lexeme listed => (placed lexeme listed).2⟩
  next =>
    have start : 1 = SourceText.lineAt cs.toArray 0 := rfl
    obtain ⟨apart, placed⟩ := lexemesFrom_placed 0 1 [] cs [] rfl rfl start
    exact ⟨apart, fun lexeme listed => (placed lexeme listed).2⟩

/-! ### Items -/

/-- The extents of the comments in front of a token, and its own. -/
def Item.extents (item : Item) : List Extent :=
  item.comments.map (·.extent) ++ [item.token.extent]

namespace ItemSequence

/-- The extents of all comments and tokens of a source. -/
def extents (input : ItemSequence) : List Extent :=
  input.items.toList.flatMap Item.extents ++ input.trailing.map (·.extent)

/-- Takes a lexeme behind the items and comments that were taken before it. -/
def takeLexeme : Array Item × List SourceComment → Lexeme → Array Item × List SourceComment
  | (items, comments), lexeme =>
    match lexeme.token?, lexeme.comment? with
    | some token, _ => (items.push ⟨comments.reverse, token⟩, [])
    | none, some comment => (items, comment :: comments)
    | none, none => (items, comments)

theorem ofLexemes_eq (found : List Lexeme) :
    ofLexemes found =
      ⟨(found.foldl takeLexeme (#[], [])).1, (found.foldl takeLexeme (#[], [])).2.reverse⟩ :=
  rfl

end ItemSequence

theorem Lexeme.extent_of_token? {lexeme : Lexeme} {token : Token}
    (same : lexeme.token? = some token) :
    token.extent = lexeme.extent ∧ token.text.toList = lexeme.chars := by
  unfold Lexeme.token? at same
  split at same <;> cases same
  exact ⟨rfl, String.toList_ofList⟩

theorem Lexeme.extent_of_comment? {lexeme : Lexeme} {comment : SourceComment}
    (same : lexeme.comment? = some comment) : comment.extent = lexeme.extent := by
  unfold Lexeme.comment? at same
  split at same <;> cases same
  rfl

namespace ItemSequence

/-- What is taken of several lexemes lies where they do, in their order. -/
theorem foldl_takeLexeme (found : List Lexeme) :
    let state := found.foldl takeLexeme (#[], [])
    (state.1.toList.flatMap Item.extents ++ state.2.reverse.map (·.extent)).Sublist
        (found.map (·.extent)) ∧
      ∀ item ∈ state.1.toList, ∃ lexeme ∈ found, lexeme.token? = some item.token := by
  -- The fold puts a lexeme behind what it has, so the induction takes the last one off.
  induction found using List.reverseRecOn with
  | nil => exact ⟨List.Sublist.refl _, List.forall_mem_nil _⟩
  | append_singleton front lexeme ih =>
    dsimp only at ih ⊢
    rw [List.foldl_append, List.foldl_cons, List.foldl_nil, List.map_append, List.map_singleton]
    generalize front.foldl takeLexeme (#[], []) = state at ih ⊢
    obtain ⟨items, comments⟩ := state
    obtain ⟨sublist, tokens⟩ := ih
    have earlier : ∀ item ∈ items.toList,
        ∃ other ∈ front ++ [lexeme], other.token? = some item.token := fun item listed => by
      obtain ⟨other, member, same⟩ := tokens item listed
      exact ⟨other, List.mem_append_left _ member, same⟩
    have whole := sublist.append (List.Sublist.refl [lexeme.extent])
    rw [takeLexeme]
    split
    next token isToken =>
      constructor
      · rw [← (Lexeme.extent_of_token? isToken).1] at whole ⊢
        simpa [Item.extents] using whole
      · intro item listed
        rw [Array.toList_push, List.mem_append, List.mem_singleton] at listed
        rcases listed with listed | rfl
        · exact earlier item listed
        · exact ⟨lexeme, by simp, isToken⟩
    next comment _ isComment =>
      refine ⟨?_, earlier⟩
      rw [← Lexeme.extent_of_comment? isComment] at whole ⊢
      simpa using whole
    next => exact ⟨sublist.trans (List.sublist_append_left _ _), earlier⟩

/-- Whether comments and tokens lie in a source one behind the other, and the lines go on behind
each token. -/
structure IsPlaced (source : SourceText) (input : ItemSequence) : Prop where
  apart : AreApart input.extents
  parts : ∀ extent ∈ input.extents, extent.IsPart source
  lineBehind : ∀ item ∈ input.items.toList,
    item.token.extent.line + item.token.text.toList.count '\n' =
      source.lineAt item.token.extent.stop

theorem isPlaced_ofLexemes (cs : List Char) : IsPlaced cs.toArray (ofLexemes (lexemes cs)) := by
  obtain ⟨sublist, tokens⟩ := foldl_takeLexeme (lexemes cs)
  obtain ⟨apart, placed⟩ := lexemes_placed cs
  rw [ofLexemes_eq]
  refine ⟨apart.sublist sublist, fun extent listed => ?_, fun item listed => ?_⟩
  · obtain ⟨lexeme, member, rfl⟩ := List.mem_map.mp (sublist.subset listed)
    exact (placed lexeme member).1
  · obtain ⟨lexeme, member, same⟩ := tokens item listed
    obtain ⟨extent, text⟩ := Lexeme.extent_of_token? same
    rw [extent, text]
    exact (placed lexeme member).2

end ItemSequence

end JavaDiagram.Java
