import JavaDiagram.Java.Extraction
import JavaDiagram.Proofs.LineFeeds
import JavaDiagram.Proofs.NormalTypes
import JavaDiagram.Proofs.ShownTexts

/-!
# The height of a class diagram

A diagram has one item for each thing that it shows: a line that opens or closes a block, a
constant, a field, a member, a title, an edge. Each item is written to a line of its own. Comments
are flattened before they are written and types are not, so the diagram has one more line for each
line feed in a shown type.
-/

namespace JavaDiagram

/-! ### Line feeds of single lines -/

@[simp]
theorem lineFeeds_blank : lineFeeds " " = 0 := by
  decide

@[simp]
theorem lineFeeds_indent : lineFeeds "  " = 0 := by
  decide

@[simp]
theorem lineFeeds_annotationText (annotations : List String) :
    lineFeeds (annotationText annotations) = totalLineFeeds annotations := by
  rw [annotationText, lineFeeds_intercalate (by decide), totalLineFeeds_map_append (by decide)]

/-- Annotations in front of a line, with a blank if there are any. -/
@[simp]
theorem lineFeeds_leading (annotations : List String) :
    lineFeeds (if annotations = [] then "" else annotationText annotations ++ " ") =
      totalLineFeeds annotations := by
  split
  next none_given => rw [none_given]; rfl
  next => simp

@[simp]
theorem Visibility.lineFeeds_glyph (visibility : Visibility) : lineFeeds visibility.glyph = 0 := by
  cases visibility <;> decide

@[simp]
theorem Visibility.lineFeeds_fieldGlyph (visibility : Visibility) :
    lineFeeds visibility.fieldGlyph = 0 := by
  cases visibility <;> decide

@[simp]
theorem ClassKind.lineFeeds_label (kind : ClassKind) : lineFeeds kind.label = 0 := by
  cases kind <;> decide

@[simp]
theorem MethodKind.lineFeeds_marker (kind : MethodKind) : lineFeeds kind.marker = 0 := by
  cases kind with
  | framework overridden => cases overridden <;> decide
  | accessor | override | user => decide

/-- A comment is shown on one line, whatever it holds. -/
@[simp]
theorem Comment.lineFeeds_summarize (comment : String) :
    lineFeeds (Comment.summarize comment) = 0 := by
  rw [lineFeeds, Comment.summarize, String.toList_ofList, List.count_eq_zero, List.mem_map]
  rintro ⟨c, _, flat⟩
  unfold Comment.flatten at flat
  split at flat
  next => exact absurd flat (by decide)
  next different => exact different flat

@[simp]
theorem Member.lineFeeds_paramText (member : Member) :
    lineFeeds member.paramText =
      totalLineFeeds (member.params.map (·.name)) +
        totalLineFeeds (member.params.map (·.typeName)) := by
  rw [paramText, lineFeeds_intercalate (by decide)]
  simp [List.sum_map_add, Nat.add_comm]

@[simp]
theorem Member.lineFeeds_signature (member : Member) :
    lineFeeds member.signature = totalLineFeeds member.names + totalLineFeeds member.types := by
  have brackets : lineFeeds "(" = 0 ∧ lineFeeds ")" = 0 := by decide
  unfold signature names types
  cases member.returnType <;> simp [brackets] <;> omega

theorem TypeName.lineFeeds_normalize_le (raw : String) :
    lineFeeds (TypeName.normalize raw) ≤ lineFeeds raw := by
  rw [lineFeeds, normalize, String.toList_ofList]
  exact (normalForm_sublist raw.toList).count_le '\n'

namespace ClassDiagram

@[simp]
theorem lineFeeds_fieldLine (field : FieldEntity) :
    lineFeeds (fieldLine field) = totalLineFeeds field.names + lineFeeds field.typeName := by
  simp [fieldLine, FieldEntity.names]
  omega

@[simp]
theorem lineFeeds_constructorLine (member : Member) :
    lineFeeds (constructorLine member) =
      totalLineFeeds member.names + totalLineFeeds member.types := by
  have mark : lineFeeds constructorMarker = 0 := by decide
  simp [constructorLine, mark]

@[simp]
theorem lineFeeds_memberLine (member : Member) :
    lineFeeds (memberLine member) = totalLineFeeds member.names + totalLineFeeds member.types := by
  have mark : lineFeeds ((member.kind.map MethodKind.marker).getD constructorMarker) = 0 := by
    cases member.kind with
    | none => decide
    | some kind => exact kind.lineFeeds_marker
  simp [memberLine, mark]

@[simp]
theorem lineFeeds_edgeLine (edge : Edge) :
    lineFeeds edge.line = lineFeeds edge.source + lineFeeds edge.target := by
  have arrows : lineFeeds " --> " = 0 ∧ lineFeeds " --|> " = 0 ∧ lineFeeds " ..|> " = 0 := by decide
  have captions : lineFeeds " : uses" = 0 ∧ lineFeeds " : extends" = 0 ∧
      lineFeeds " : implements" = 0 := by decide
  unfold Edge.line
  split <;> simp [arrows, captions]

/-! ### Sizes -/

/-- How many items the block of an enum has. -/
def enumSize (entity : EnumEntity) : Nat :=
  3 + entity.constants.length

/-- How many items a group of members has: none if it is empty, and else its title too. -/
def groupSize (members : List Member) : Nat :=
  if members.isEmpty then 0 else 1 + members.length

/-- How many items the block of a class has. -/
def classSize (entity : ClassEntity) : Nat :=
  3 + (if entity.annotations.isEmpty then 0 else 1) + (if entity.comment.isEmpty then 0 else 1) +
    entity.fields.length + groupSize entity.constructors + groupSize entity.accessors +
    groupSize entity.userMethods + groupSize entity.frameworkMethods

/-- How many items a diagram has. -/
def diagramSize (model : CodeModel) : Nat :=
  1 + (model.enums.values.map enumSize).sum + (model.classes.values.map classSize).sum +
    (edges model).length

theorem length_enumLines (entity : EnumEntity) : (enumLines entity).length = enumSize entity := by
  simp only [enumLines, enumSize, List.length_append, List.length_map, List.length_cons,
    List.length_nil]
  omega

theorem length_groupLines (title : String) (line : Member → String) (members : List Member) :
    (groupLines title line members).length = groupSize members := by
  cases members with
  | nil => rfl
  | cons member rest => simp [groupLines, groupSize, Nat.add_comm]

theorem length_classLines (entity : ClassEntity) :
    (classLines entity).length = classSize entity := by
  unfold classLines classSize
  simp only [List.length_append, length_groupLines, List.length_map, apply_ite List.length,
    List.length_cons, List.length_nil, Nat.zero_add]
  omega

theorem length_lines (model : CodeModel) : (lines model).length = diagramSize model := by
  have enums : (fun entity => (enumLines entity).length) = enumSize := funext length_enumLines
  have classes : (fun entity => (classLines entity).length) = classSize := funext length_classLines
  simp only [lines, diagramSize, List.length_cons, List.length_append, List.length_flatMap,
    List.length_map, enums, classes]
  omega

/-! ### Line feeds of a diagram -/

@[simp]
theorem lineFeeds_openBlock (name : String) : lineFeeds (openBlock name) = lineFeeds name := by
  have ends : lineFeeds "class " = 0 ∧ lineFeeds " \x7b" = 0 := by decide
  simp [openBlock, ends]

@[simp]
theorem lineFeeds_closeBlock : lineFeeds closeBlock = 0 := by
  decide

@[simp]
theorem totalLineFeeds_enumLines (entity : EnumEntity) :
    totalLineFeeds (enumLines entity) = totalLineFeeds entity.names := by
  have plain : lineFeeds "<<enumeration>>" = 0 := by decide
  have constants := totalLineFeeds_map_append lineFeeds_indent entity.constants
  rw [enumLines, totalLineFeeds_append, totalLineFeeds_append, constants]
  simp [EnumEntity.names, plain]

theorem totalLineFeeds_groupLines {title : String} {line : Member → String}
    (plain : lineFeeds title = 0)
    (counted : ∀ member, lineFeeds (line member) =
      totalLineFeeds member.names + totalLineFeeds member.types) (members : List Member) :
    totalLineFeeds (groupLines title line members) =
      totalLineFeeds (members.flatMap (·.names)) + totalLineFeeds (members.flatMap (·.types)) := by
  unfold groupLines
  cases members with
  | nil => rfl
  | cons member rest =>
    rw [List.isEmpty_cons, if_neg Bool.false_ne_true, totalLineFeeds_cons, plain, Nat.zero_add]
    simp only [totalLineFeeds_map, totalLineFeeds_flatMap, counted, List.sum_map_add]

@[simp]
theorem totalLineFeeds_classLines (entity : ClassEntity) :
    totalLineFeeds (classLines entity) =
      totalLineFeeds entity.names + totalLineFeeds entity.types := by
  have mark : lineFeeds "  %% " = 0 := by decide
  have annotations : totalLineFeeds (if entity.annotations.isEmpty then []
      else ["  " ++ annotationText entity.annotations]) = totalLineFeeds entity.annotations := by
    cases entity.annotations <;> simp
  have comment : totalLineFeeds (if entity.comment.isEmpty then []
      else ["  %% " ++ Comment.summarize entity.comment]) = 0 := by
    split <;> simp [mark]
  -- Titles hold no line feed, so a group has those of its members.
  have constructors (title : String) (plain : lineFeeds title = 0) :=
    totalLineFeeds_groupLines plain lineFeeds_constructorLine entity.constructors
  have methods (title : String) (plain : lineFeeds title = 0) (members : List Member) :=
    totalLineFeeds_groupLines plain lineFeeds_memberLine members
  unfold classLines ClassEntity.names ClassEntity.types ClassEntity.members
  simp only [totalLineFeeds_append, annotations, comment,
    constructors "%% ⚙ Constructors" (by decide), methods "%% 🔘 Getters/Setters" (by decide),
    methods "%% 🛠 User-Defined Methods" (by decide),
    methods "%% 🏛 System/Overridden Methods" (by decide)]
  simp [List.sum_map_add]
  omega

/-- The line feeds in the items of a diagram are those in its names and types. -/
theorem totalLineFeeds_lines (model : CodeModel) :
    totalLineFeeds (lines model) =
      totalLineFeeds (shownNames model) + totalLineFeeds (shownTypes model) := by
  have plain : lineFeeds header = 0 := by decide
  simp [lines, shownNames, shownTypes, plain, List.sum_map_add]
  omega

/-- The height of a diagram: a line for each item, and one for each line feed in it. -/
theorem length_lines_render (model : CodeModel) :
    (Text.lines (render model).toList).length = diagramSize model +
      (totalLineFeeds (shownNames model) + totalLineFeeds (shownTypes model)) := by
  rw [render, length_lines_unlines, length_lines, totalLineFeeds_lines]

/-- If no declared name holds a line feed, the diagram of ingested units has a line for each item
and one for each line feed in a shown type. So each item takes one line exactly if no shown type
holds a line feed, as when every type is written on one line. -/
theorem render_height {units : List Java.SyntaxUnit}
    (plain : ∀ decl ∈ committedDeclarations units, ∀ name ∈ decl.names, lineFeeds name = 0) :
    let model := (({} : CodeModel).ingestAll units).1
    let height := (Text.lines (render model).toList).length
    height = diagramSize model + totalLineFeeds (shownTypes model) ∧
      (height = diagramSize model ↔ ∀ type ∈ shownTypes model, lineFeeds type = 0) ∧
      ((∀ decl ∈ committedDeclarations units, ∀ text ∈ decl.typeTexts, lineFeeds text = 0) →
        height = diagramSize model) := by
  intro model height
  have closed : ClosedForm (committedDeclarations units) model :=
    (closedForm_iff_ingestAll units model).mpr rfl
  -- The names in the diagram are declared, also those at the ends of edges.
  have names : totalLineFeeds (shownNames model) = 0 := by
    apply totalLineFeeds_eq_zero_iff.mpr
    intro name shown
    obtain ⟨decl, listed, told⟩ := closed.exists_of_mem_shownNames shown
    exact plain decl listed name told
  have counted : height = diagramSize model + totalLineFeeds (shownTypes model) := by
    have whole := length_lines_render model
    rw [names, Nat.zero_add] at whole
    exact whole
  have exact_if : height = diagramSize model ↔ ∀ type ∈ shownTypes model, lineFeeds type = 0 := by
    rw [counted, Nat.add_eq_left, totalLineFeeds_eq_zero_iff]
  refine ⟨counted, exact_if, fun one_line => exact_if.mpr ?_⟩
  intro type shown
  obtain ⟨decl, listed, text, written, rfl⟩ := closed.exists_of_mem_shownTypes shown
  exact Nat.le_zero.mp (one_line decl listed text written ▸ TypeName.lineFeeds_normalize_le text)

/-- A class with a comment on two lines and a field whose type is written on two lines. -/
def splitStore : List Java.SyntaxUnit :=
  [.ofSource "a/Store.java" ("/** Keeps\n * items. */\nclass Store \x7b\n" ++
      "    Map<String, List<Item>\n> items;\n\x7d\n"),
    .ofSource "b/Item.java" "class Item { }"]

theorem committed_splitStore :
    committedDeclarations splitStore =
      [.ofClass
        { name := "Store"
          javadoc := some "/** Keeps\n * items. */"
          fields := [{ typeText := "Map<String, List<Item>\n>", name := "items" }]
          line := 3 },
        .ofClass { name := "Item", line := 1 }] := by
  decide +kernel

theorem lineFeeds_names_splitStore : ∀ decl ∈ committedDeclarations splitStore,
    ∀ name ∈ decl.names, lineFeeds name = 0 := by
  rw [committed_splitStore]
  decide

theorem splitStore_height :
    (∀ decl ∈ committedDeclarations splitStore, ∀ name ∈ decl.names, lineFeeds name = 0) ∧
      let model := (({} : CodeModel).ingestAll splitStore).1
      let height := (Text.lines (render model).toList).length
      height = diagramSize model + totalLineFeeds (shownTypes model) ∧
        (height = diagramSize model ↔ ∀ type ∈ shownTypes model, lineFeeds type = 0) ∧
        ((∀ decl ∈ committedDeclarations splitStore,
          ∀ text ∈ decl.typeTexts, lineFeeds text = 0) → height = diagramSize model) :=
  ⟨lineFeeds_names_splitStore, render_height lineFeeds_names_splitStore⟩

/-- A line feed behind the inner bracket of a type stays in the diagram. -/
theorem not_a_line_for_each_item :
    ¬ ∀ units : List Java.SyntaxUnit,
      (∀ decl ∈ committedDeclarations units, ∀ name ∈ decl.names, lineFeeds name = 0) →
        let model := (({} : CodeModel).ingestAll units).1
        (Text.lines (render model).toList).length = diagramSize model := by
  intro claim
  have counted := claim splitStore lineFeeds_names_splitStore
  rw [CodeModel.ingestAll_model, committed_splitStore] at counted
  exact absurd counted (by decide +kernel)

end ClassDiagram

end JavaDiagram
