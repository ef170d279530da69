import JavaDiagram.Proofs.CommentSummaries
import JavaDiagram.Proofs.DiagramHeight

/-!
# Short comments

A comment is cut before it is flattened. Since each character is flattened for itself, it could as
well be flattened first, so what is shown are the first characters of the comment with its line
feeds as blanks. A shown comment is short and flat already and is shown as it is.

A class is drawn in three parts, and only the one in the middle depends on its comment: a single
line, or nothing for a class without a comment. What stands in front of the line and behind it is
the diagram without the comment.
-/

namespace JavaDiagram

/-! ### Cutting and flattening -/

namespace Comment

/-- A text with a blank in place of each line feed. -/
def flat (comment : String) : String :=
  String.ofList (comment.toList.map fun c => if c = '\n' then ' ' else c)

theorem flat_of_single {comment : String} (single : '\n' ∉ comment.toList) :
    flat comment = comment := by
  have kept : comment.toList.map (fun c => if c = '\n' then ' ' else c) = comment.toList.map id :=
    List.map_congr_left fun c listed => if_neg fun (feed : c = '\n') => single (feed ▸ listed)
  rw [flat, kept, List.map_id, String.ofList_toList]

theorem length_flat (comment : String) : (flat comment).length = comment.length := by
  rw [flat, String.length_ofList, List.length_map, String.length_toList]

theorem shorten_of_length_le {cs : List Char} (short : cs.length ≤ limit) : shorten cs = cs :=
  if_neg (Nat.not_lt.mpr short)

theorem shorten_of_limit_lt {cs : List Char} (long : limit < cs.length) :
    shorten cs = cs.take keep ++ "...".toList :=
  if_pos long

theorem length_shorten_le (cs : List Char) : (shorten cs).length ≤ limit := by
  unfold shorten
  split
  next => simp [keep, limit]
  next short => exact Nat.not_lt.mp short

theorem map_flatten_shorten (cs : List Char) :
    (shorten cs).map flatten = shorten (cs.map flatten) := by
  have dots : "...".toList.map flatten = "...".toList := by decide
  by_cases long : limit < cs.length
  · have long_flat : limit < (cs.map flatten).length := by rwa [List.length_map]
    rw [shorten_of_limit_lt long, shorten_of_limit_lt long_flat, List.map_append, List.map_take,
      dots]
  · have short := Nat.not_lt.mp long
    rw [shorten_of_length_le short, shorten_of_length_le (by rwa [List.length_map])]

/-- Flattening before cutting is the same as cutting before flattening. -/
theorem summarize_eq (comment : String) :
    summarize comment = String.ofList (shorten (flat comment).toList) := by
  rw [summarize, map_flatten_shorten, flat, String.toList_ofList]
  rfl

theorem summarize_of_length_le {comment : String} (short : comment.length ≤ limit) :
    summarize comment = flat comment := by
  rw [summarize_eq, shorten_of_length_le, String.ofList_toList]
  rwa [String.length_toList, length_flat]

theorem summarize_of_limit_lt {comment : String} (long : limit < comment.length) :
    summarize comment = String.ofList ((flat comment).toList.take keep) ++ "..." := by
  rw [summarize_eq, shorten_of_limit_lt, String.ofList_append, String.ofList_toList]
  rwa [String.length_toList, length_flat]

theorem length_summarize_le (comment : String) : (summarize comment).length ≤ limit := by
  rw [summarize_eq, String.length_ofList]
  exact length_shorten_le _

theorem lineFeed_not_mem_summarize (comment : String) : '\n' ∉ (summarize comment).toList :=
  List.count_eq_zero.mp (lineFeeds_summarize comment)

theorem summarize_summarize (comment : String) :
    summarize (summarize comment) = summarize comment := by
  rw [summarize_of_length_le (length_summarize_le comment),
    flat_of_single (lineFeed_not_mem_summarize comment)]

end Comment

/-! ### Lines in front and behind -/

theorem Text.lines_unlines_append (front back : List String) :
    lines (unlines (front ++ back)).toList =
      lines (unlines front).toList ++ lines (unlines back).toList := by
  have no_line : lines [] = [] := by decide
  rcases List.eq_nil_or_concat front with rfl | ⟨front, last, rfl⟩
  · exact (List.nil_append _).symm
  · -- Both texts go on with the last line in front and its line feed.
    have written (back : List String) : (unlines (front ++ [last] ++ back)).toList =
        ((unlines front).toList ++ last.toList) ++ '\n' :: (unlines back).toList := by
      simp [unlines, String.join_append, String.join_cons]
    have alone := written []
    rw [List.append_nil] at alone
    rw [List.concat_eq_append, written, alone, lines_append_cons, lines_append_cons]
    simp [unlines, no_line]

theorem CodeModel.insertClass_of_get? {model : CodeModel} {entity : ClassEntity}
    (found : model.classes.get? entity.name = some entity) : model.insertClass entity = model := by
  rw [insertClass, Table.put_of_get? found]

namespace ClassDiagram

/-! ### The parts of a block -/

/-- The lines of a class block in front of the comment. -/
def blockFront (entity : ClassEntity) : List String :=
  [openBlock entity.name, "  " ++ entity.kind.label] ++
    (if entity.annotations.isEmpty then [] else ["  " ++ annotationText entity.annotations])

/-- The line of a comment, if there is one. -/
def commentLines (comment : String) : List String :=
  if comment.isEmpty then [] else ["  %% " ++ Comment.summarize comment]

/-- The lines of a class block behind the comment. -/
def blockBack (entity : ClassEntity) : List String :=
  entity.fields.map fieldLine ++
    groupLines "%% ⚙ Constructors" constructorLine entity.constructors ++
    groupLines "%% 🔘 Getters/Setters" memberLine entity.accessors ++
    groupLines "%% 🛠 User-Defined Methods" memberLine entity.userMethods ++
    groupLines "%% 🏛 System/Overridden Methods" memberLine entity.frameworkMethods ++
    [closeBlock]

theorem classLines_eq (entity : ClassEntity) :
    classLines entity = blockFront entity ++ commentLines entity.comment ++ blockBack entity := by
  simp only [classLines, blockFront, commentLines, blockBack, List.append_assoc]

theorem lines_commentLines (comment : String) :
    Text.lines (Text.unlines (commentLines comment)).toList =
      if comment = "" then [] else [("  %% " ++ Comment.summarize comment).toList] := by
  have single : ∀ line ∈ commentLines comment, '\n' ∉ line.toList := by
    intro line listed
    unfold commentLines at listed
    split at listed
    next => cases listed
    next =>
      have shown := Comment.lineFeed_not_mem_summarize comment
      rw [List.mem_singleton.mp listed, String.toList_append, List.mem_append, not_or]
      exact ⟨by decide, shown⟩
  rw [Text.lines_unlines single, commentLines]
  simp only [String.isEmpty_iff]
  split <;> rfl

/-! ### Diagrams with and without a comment -/

/-- The edges of a diagram do not depend on what is held of a known class. -/
theorem edges_insertClass {model : CodeModel} {entity new : ClassEntity}
    (found : model.classes.get? new.name = some entity) :
    edges (model.insertClass new) = edges model := by
  have classes (name : String) :
      (model.insertClass new).classes.contains name = model.classes.contains name :=
    Table.contains_put_of_get? found new name
  have known (name : String) : (model.insertClass new).isKnown name = model.isKnown name := by
    rw [CodeModel.isKnown, CodeModel.isKnown, classes]
    rfl
  simp only [edges, classes, known]
  rfl

/-- Whatever the comment of a class is, its line stands between the same lines. -/
theorem exists_lines_render {model : CodeModel} {entity : ClassEntity}
    (found : model.classes.get? entity.name = some entity) :
    ∃ front back, ∀ comment,
      Text.lines (render (model.insertClass { entity with comment := comment })).toList =
        front ++ Text.lines (Text.unlines (commentLines comment)).toList ++ back := by
  obtain ⟨before, after, -, replaced⟩ := Table.exists_entries_put found
  let front := header :: model.enums.values.flatMap enumLines ++
    (before.map (·.2)).flatMap classLines ++ blockFront entity
  let back := blockBack entity ++ (after.map (·.2)).flatMap classLines ++
    (edges model).map Edge.line
  refine ⟨Text.lines (Text.unlines front).toList, Text.lines (Text.unlines back).toList, ?_⟩
  intro comment
  have drawn : lines (model.insertClass { entity with comment := comment }) =
      front ++ commentLines comment ++ back := by
    have same_edges : edges (model.insertClass { entity with comment := comment }) = edges model :=
      edges_insertClass found
    have values : (model.insertClass { entity with comment := comment }).classes.values =
        before.map (·.2) ++ { entity with comment := comment } :: after.map (·.2) := by
      rw [CodeModel.insertClass, Table.values, replaced]
      simp
    rw [lines, same_edges, values, List.flatMap_append, List.flatMap_cons, classLines_eq]
    simp [front, back, CodeModel.insertClass, blockFront, blockBack]
  rw [render, drawn, Text.lines_unlines_append, Text.lines_unlines_append]

/-- A shown comment is the flat comment, or its first 47 characters and three dots if it has more
than 50. So the comment of a class is a single line between the lines of the diagram without it,
and there is no line if the documentation says nothing in front of its first tag. -/
theorem comment_takesOneLine :
    (∀ comment : String,
      (comment.length ≤ 50 → Comment.summarize comment = Comment.flat comment) ∧
      (50 < comment.length → Comment.summarize comment =
        String.ofList ((Comment.flat comment).toList.take 47) ++ "...") ∧
      Comment.summarize comment =
        String.ofList (Comment.shorten (Comment.flat comment).toList) ∧
      (Comment.summarize comment).length ≤ 50 ∧
      '\n' ∉ (Comment.summarize comment).toList ∧
      Comment.summarize (Comment.summarize comment) = Comment.summarize comment) ∧
    ∀ (model : CodeModel) (decl : Java.ClassSyntax) (raw : String), decl.javadoc = some raw →
      model.classes.get? decl.name = some decl.entity →
      ∃ front back,
        Text.lines (render (model.insertClass { decl.entity with comment := "" })).toList =
          front ++ back ∧
        Text.lines (render model).toList = front ++
          (if Javadoc.summary raw = "" then []
            else [("  %% " ++ Comment.summarize (Javadoc.summary raw)).toList]) ++ back := by
  refine ⟨fun comment => ⟨Comment.summarize_of_length_le, Comment.summarize_of_limit_lt,
    Comment.summarize_eq comment, Comment.length_summarize_le comment,
    Comment.lineFeed_not_mem_summarize comment, Comment.summarize_summarize comment⟩, ?_⟩
  intro model decl raw documented found
  have held : model.classes.get? decl.entity.name = some decl.entity := found
  obtain ⟨front, back, drawn⟩ := exists_lines_render held
  have same : model.insertClass { decl.entity with comment := Javadoc.summary raw } = model := by
    have told : decl.entity.comment = Javadoc.summary raw := by
      rw [Java.ClassSyntax.entity, documented]
      rfl
    rw [← told]
    exact CodeModel.insertClass_of_get? held
  refine ⟨front, back, ?_, ?_⟩
  · rw [drawn, lines_commentLines, if_pos rfl, List.append_nil]
  · rw [← lines_commentLines, ← drawn, same]

/-- Documentation on two lines, of which not all is shown. -/
def storeJavadoc : String :=
  "/** Keeps the items that were ordered\n * until they are sent.\n * @since 2 */"

def documentedStore : Java.ClassSyntax where
  name := "Store"
  javadoc := some storeJavadoc

theorem documentedStore_takesOneLine :
    let model := ({} : CodeModel).insertClass documentedStore.entity
    let bare := model.insertClass { documentedStore.entity with comment := "" }
    documentedStore.javadoc = some storeJavadoc ∧
      model.classes.get? "Store" = some documentedStore.entity ∧
      ∃ front back,
        Text.lines (render bare).toList = front ++ back ∧
        Text.lines (render model).toList = front ++
          ["  %% Keeps the items that were ordered until they ar...".toList] ++ back := by
  intro model bare
  have found : model.classes.get? "Store" = some documentedStore.entity := by decide +kernel
  have filled : Javadoc.summary storeJavadoc ≠ "" := by decide +kernel
  have shown : Comment.summarize (Javadoc.summary storeJavadoc) =
      "Keeps the items that were ordered until they ar..." := by
    decide +kernel
  obtain ⟨front, back, without, whole⟩ :=
    comment_takesOneLine.2 model documentedStore storeJavadoc rfl found
  rw [if_neg filled, shown] at whole
  exact ⟨rfl, found, front, back, without, whole⟩

/-- A class whose documentation is one tag. -/
def taggedTone : Java.ClassSyntax where
  name := "Tone"
  javadoc := some "/** @since 2 */"
  line := 2

def toneUnits : List Java.SyntaxUnit :=
  [.ofSource "a/Tone.java" "/** @since 2 */\nclass Tone \x7b\n\x7d\n"]

theorem committed_toneUnits : committedDeclarations toneUnits = [.ofClass taggedTone] := by
  decide +kernel

/-- A class that is documented by a tag alone has no comment and no line for it. -/
theorem not_a_line_for_each_javadoc :
    ¬ ∀ (units : List Java.SyntaxUnit) (decl : Java.ClassSyntax) (raw : String),
      .ofClass decl ∈ committedDeclarations units → decl.javadoc = some raw →
        let model := (({} : CodeModel).ingestAll units).1
        model.classes.get? decl.name = some decl.entity →
          ∃ front line back,
            Text.lines (render (model.insertClass { decl.entity with comment := "" })).toList =
              front ++ back ∧
            Text.lines (render model).toList = front ++ line :: back := by
  intro claim
  let model := ({} : CodeModel).commitAll [.ofClass taggedTone]
  have bare_already : model.insertClass { taggedTone.entity with comment := "" } = model := by
    decide +kernel
  have counted := claim toneUnits taggedTone "/** @since 2 */"
  rw [CodeModel.ingestAll_model, committed_toneUnits] at counted
  obtain ⟨front, line, back, bare, shown⟩ :=
    counted (List.mem_singleton_self _) rfl (by decide +kernel)
  rw [bare_already, shown] at bare
  have lengths := congrArg List.length bare
  rw [List.length_append, List.length_append, List.length_cons] at lengths
  omega

end ClassDiagram

end JavaDiagram
