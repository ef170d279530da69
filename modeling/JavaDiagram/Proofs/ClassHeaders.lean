import JavaDiagram.Java.Grammar
import JavaDiagram.Proofs.Derivations
import JavaDiagram.Proofs.SubtreeTexts

/-!
# The header of a class

What may stand directly in a class declaration is told by the grammar, whatever the tokens are. A
class declaration has no list of interfaces to extend, and its superclass clause holds one type at
most, comments apart. A test on rules finds this in every rule of the grammar, and what passes the
test gives such trees only.
-/

namespace JavaDiagram.Java

namespace Node

/-- The named children of a clause, comments apart. -/
def namedParts (clause : Node) : List Node :=
  clause.namedChildren.filter (!·.isComment)

/-- Whether a node may stand in a class declaration. -/
def IsClassPart (part : Node) : Prop :=
  part.kind ≠ .extendsInterfaces ∧
    (part.label = some .superclass → part.namedParts.length ≤ 1)

/-- Whether every class declaration in a tree has such children only. A comment that is the tree has
no label. -/
def IsGrammatical (node : Node) : Prop :=
  (node.isComment = true → node.label = none) ∧
    ∀ inner ∈ node.preorder, inner.kind = .classDeclaration →
      ∀ part ∈ inner.children, part.IsClassPart

/-- Whether a node may stand where a rule put it, in a class declaration or elsewhere. -/
def IsAllowed (inClass : Bool) (node : Node) : Prop :=
  node.IsGrammatical ∧ (inClass = true → node.IsClassPart)

/-! ### Building trees -/

theorem isGrammatical_of_children {node : Node} (plain : node.label = none)
    (children : ∀ child ∈ node.children, child.IsGrammatical)
    (parts : node.kind = .classDeclaration → ∀ part ∈ node.children, part.IsClassPart) :
    node.IsGrammatical := by
  refine ⟨fun _ => plain, fun inner within isClass => ?_⟩
  rcases mem_preorder_iff.mp within with rfl | deep
  · exact parts isClass
  · obtain ⟨child, member, deep⟩ := exists_mem_preorderAll deep
    exact (children child member).2 inner deep isClass

theorem isClassPart_of_label {part : Node} (kind : part.kind ≠ .extendsInterfaces)
    (label : part.label ≠ some .superclass) : part.IsClassPart :=
  ⟨kind, fun same => absurd same label⟩

theorem kind_ne_of_comment {node : Node} (comment : node.isComment = true) :
    node.kind ≠ .extendsInterfaces := by
  intro same
  simp [isComment, same] at comment

theorem IsGrammatical.isClassPart_of_comment {node : Node} (grammatical : node.IsGrammatical)
    (comment : node.isComment = true) : node.IsClassPart :=
  isClassPart_of_label (kind_ne_of_comment comment) (by simp [grammatical.1 comment])

/-- A node without children that is no part of its parent may stand anywhere. -/
theorem isAllowed_of_leaf {node : Node} (inClass : Bool) (plain : node.label = none)
    (bare : node.children = []) (kind : node.kind ≠ .extendsInterfaces) :
    node.IsAllowed inClass := by
  have none_below (p : Node → Prop) : ∀ child ∈ node.children, p child := by simp [bare]
  exact ⟨isGrammatical_of_children plain (none_below _) fun _ => none_below _,
    fun _ => isClassPart_of_label kind (by simp [plain])⟩

theorem kind_withLabel (label : NodeLabel) (node : Node) :
    (node.withLabel label).kind = node.kind := by
  obtain ⟨kind, old, extent, children⟩ := node
  rw [withLabel]
  split_ifs <;> rfl

theorem children_withLabel (label : NodeLabel) (node : Node) :
    (node.withLabel label).children = node.children := by
  obtain ⟨kind, old, extent, children⟩ := node
  rw [withLabel]
  split_ifs <;> rfl

theorem label_withLabel (label : NodeLabel) (node : Node) :
    (node.withLabel label).label = if node.isComment then node.label else some label := by
  obtain ⟨kind, old, extent, children⟩ := node
  rw [withLabel]
  split_ifs <;> rfl

theorem namedParts_withLabel (label : NodeLabel) (node : Node) :
    (node.withLabel label).namedParts = node.namedParts := by
  rw [namedParts, namedChildren, children_withLabel]
  rfl

theorem isComment_withLabel (label : NodeLabel) (node : Node) :
    (node.withLabel label).isComment = node.isComment := by
  rw [isComment, kind_withLabel, isComment]

theorem IsGrammatical.withLabel {node : Node} (grammatical : node.IsGrammatical)
    (label : NodeLabel) : (node.withLabel label).IsGrammatical := by
  constructor
  · intro comment
    rw [isComment_withLabel] at comment
    rw [label_withLabel, if_pos comment]
    exact grammatical.1 comment
  · intro inner within isClass
    rw [mem_preorder_iff, children_withLabel] at within
    rcases within with rfl | deep
    · rw [kind_withLabel] at isClass
      rw [children_withLabel]
      exact grammatical.2 node node.mem_preorder_self isClass
    · exact grammatical.2 inner (mem_preorder_iff.mpr (Or.inr deep)) isClass

end Node

/-! ### Testing rules -/

/-- Whether a rule gives a node over one word and a node behind it, as the superclass clause is. -/
def Rule.isWordWithNode : Rule → Bool
  | .node _ (.seq (.exact _) (.node _ _)) => true
  | _ => false

mutual

/-- Whether a rule, and every rule in it, gives nodes that are allowed where they stand. -/
def Rule.isSound (inClass : Bool) : Rule → Bool
  | .seq first second | .orElse first second => first.isSound inClass && second.isSound inClass
  | .many rule => rule.isSound inClass
  | .node kind rule =>
    !(inClass && kind == .extendsInterfaces) && rule.isSound (kind == .classDeclaration)
  | .label part rule =>
    (part != .superclass || rule.isWordWithNode) && rule.isSound inClass
  | .grow base suffixes => base.isSound inClass && suffixesSound inClass suffixes
  | .extend _ _ => false
  | _ => true

/-- Whether all of several suffixes are sound. -/
def suffixesSound (inClass : Bool) : List Suffix → Bool
  | [] => true
  | suffix :: rest => suffix.isSound inClass && suffixesSound inClass rest

/-- Whether a suffix gives an allowed node if the one in front of it is allowed. It never makes a
class, so what it takes stands in no class directly. -/
def Suffix.isSound (inClass : Bool) : Suffix → Bool
  | .mk _ kind _ rule =>
    !(inClass && kind == .extendsInterfaces) && kind != .classDeclaration && rule.isSound false

end

theorem Suffix.isSound_of_mem {inClass : Bool} {suffixes : List Suffix}
    (sound : suffixesSound inClass suffixes = true) {suffix : Suffix} (listed : suffix ∈ suffixes) :
    suffix.isSound inClass = true := by
  induction suffixes with
  | nil => cases listed
  | cons head rest ih =>
    rw [suffixesSound, Bool.and_eq_true] at sound
    rcases List.mem_cons.mp listed with rfl | listed
    · exact sound.1
    · exact ih sound.2 listed

theorem Suffix.isSound_rule {inClass : Bool} {suffix : Suffix}
    (sound : suffix.isSound inClass = true) : suffix.rule.isSound false = true := by
  obtain ⟨behind, kind, label, rule⟩ := suffix
  rw [Suffix.isSound, Bool.and_eq_true] at sound
  exact sound.2

theorem Grammar.isSound_rules (phrase : Phrase) (inClass : Bool) :
    (rules phrase).isSound inClass = true := by
  cases phrase <;> cases inClass <;> decide +kernel

theorem Grammar.isSound_program : program.isSound false = true := by
  decide +kernel

/-! ### Nodes of sound rules -/

section

variable {grammar : Phrase → Rule} {inClass : Bool}

theorem tokenKind?_ne {rule : Rule} {kind : NodeKind} (takes : rule.tokenKind? = some kind) :
    kind ≠ .extendsInterfaces := by
  unfold Rule.tokenKind? at takes
  split at takes <;> cases takes <;> decide

theorem isAllowed_gather {kind : NodeKind} {nodes : List Node}
    (apart : inClass = true → kind ≠ .extendsInterfaces)
    (below : ∀ node ∈ nodes, node.IsAllowed (kind == .classDeclaration)) :
    ∀ node ∈ gather kind nodes, node.IsAllowed inClass := by
  intro node member
  rcases mem_gather member with ⟨listed, comment⟩ | ⟨rfl, plain, within⟩
  · have grammatical := (below node listed).1
    exact ⟨grammatical, fun _ => grammatical.isClassPart_of_comment comment⟩
  · refine ⟨Node.isGrammatical_of_children plain ?_ ?_, fun isPart => ?_⟩
    · exact fun child listed => (below child (within.subset listed)).1
    · exact fun isClass child listed => (below child (within.subset listed)).2 (by simp [isClass])
    · exact Node.isClassPart_of_label (apart isPart) (by simp [plain])

theorem Suffix.isAllowed_wrap {suffix : Suffix} (sound : suffix.isSound inClass = true)
    {left : Node} {right : List Node} (front : left.IsAllowed inClass)
    (behind : ∀ node ∈ right, node.IsAllowed false) :
    (suffix.wrap left right).IsAllowed inClass := by
  obtain ⟨fitting, kind, label, rule⟩ := suffix
  simp only [Suffix.isSound, Bool.and_eq_true, bne_iff_ne, ne_eq, Bool.not_eq_true',
    Bool.and_eq_false_iff, beq_eq_false_iff_ne] at sound
  obtain ⟨⟨apart, no_class⟩, _⟩ := sound
  constructor
  · refine Node.isGrammatical_of_children rfl ?_ fun isClass => absurd isClass no_class
    intro child listed
    rcases List.mem_cons.mp listed with rfl | listed
    · cases label with
      | none => exact front.1
      | some label => exact Node.IsGrammatical.withLabel front.1 label
    · exact (behind child listed).1
  · intro isPart
    have kind : kind ≠ .extendsInterfaces := apart.resolve_left (by simp [isPart])
    exact Node.isClassPart_of_label kind (by simp [wrap, Node.label])

theorem Suffix.isAllowed_wrapAll {steps : List (Suffix × List Node)} {left : Node}
    (front : left.IsAllowed inClass)
    (sound : ∀ step ∈ steps, step.1.isSound inClass = true)
    (behind : ∀ step ∈ steps, ∀ node ∈ step.2, node.IsAllowed false) :
    (wrapAll left steps).IsAllowed inClass := by
  induction steps generalizing left with
  | nil => exact front
  | cons step rest ih =>
    rw [List.forall_mem_cons] at sound behind
    exact ih (isAllowed_wrap sound.1 front behind.1) sound.2 behind.2

/-- A word and at most one node behind it are at most one named part, comments apart. -/
theorem Yields.one_named_part {text : String} {word : List Node}
    (yields : Yields grammar (.exact text) word) (kind : NodeKind) (nodes : List Node) :
    (((word ++ gather kind nodes).filter Node.isNamed).filter (!·.isComment)).length ≤ 1 := by
  have unnamed : (word.filter Node.isNamed).filter (!·.isComment) = [] := by
    obtain ⟨item, rfl⟩ := yields.of_exact
    rw [List.filter_filter, List.filter_eq_nil_iff]
    intro node member
    rcases (item.leaf_of_mem_nodes member).2.2 with comment | isToken
    · simp [comment]
    · simp [Node.isNamed, isToken]
  have behind : (((gather kind nodes).filter Node.isNamed).filter (!·.isComment)).length ≤ 1 :=
    (List.filter_sublist.filter _).length_le.trans (length_filter_gather_le kind nodes)
  rw [List.filter_append, List.filter_append, unnamed, List.nil_append]
  exact behind

/-- Over a word and a node behind it there is one named part, comments apart. -/
theorem Yields.length_namedParts_le {rule : Rule} {nodes : List Node}
    (yields : Yields grammar rule nodes) (clause : rule.isWordWithNode = true) {node : Node}
    (member : node ∈ nodes) (apart : node.isComment = false) : node.namedParts.length ≤ 1 := by
  unfold Rule.isWordWithNode at clause
  split at clause
  next =>
    obtain ⟨below, below_yields, rfl⟩ := yields.of_node
    obtain ⟨word, behind, word_yields, behind_yields, rfl⟩ := below_yields.of_seq
    obtain ⟨parts, _, rfl⟩ := behind_yields.of_node
    rcases mem_gather member with ⟨_, comment⟩ | ⟨_, _, within⟩
    · rw [apart] at comment
      cases comment
    · have named := (within.filter Node.isNamed).filter (!·.isComment)
      exact named.length_le.trans (word_yields.one_named_part _ parts)
  next => cases clause

/-- The nodes of sound rules are allowed where they stand. -/
theorem Yields.isAllowed (sound : ∀ phrase inClass, (grammar phrase).isSound inClass = true)
    {rule : Rule} {nodes : List Node} (yields : Yields grammar rule nodes)
    (passes : rule.isSound inClass = true) : ∀ node ∈ nodes, node.IsAllowed inClass := by
  induction yields generalizing inClass with
  | nothing _ => exact List.forall_mem_nil _
  | token item takes =>
    intro node member
    obtain ⟨plain, bare, kind⟩ := item.leaf_of_mem_nodes member
    refine Node.isAllowed_of_leaf inClass plain bare ?_
    rcases kind with comment | rfl
    · exact Node.kind_ne_of_comment comment
    · exact tokenKind?_ne takes
  | fault extent =>
    rw [List.forall_mem_singleton]
    exact Node.isAllowed_of_leaf inClass rfl rfl (nofun : NodeKind.error ≠ .extendsInterfaces)
  | seq _ _ ih ih' =>
    rw [Rule.isSound, Bool.and_eq_true] at passes
    exact List.forall_mem_append.mpr ⟨ih passes.1, ih' passes.2⟩
  | first _ ih =>
    rw [Rule.isSound, Bool.and_eq_true] at passes
    exact ih passes.1
  | second _ ih =>
    rw [Rule.isSound, Bool.and_eq_true] at passes
    exact ih passes.2
  | again _ _ ih ih' =>
    have once := passes
    rw [Rule.isSound] at once
    exact List.forall_mem_append.mpr ⟨ih once, ih' passes⟩
  | node kind _ ih =>
    -- What stands below a class declaration was tested as a part of a class.
    rw [Rule.isSound, Bool.and_eq_true] at passes
    refine isAllowed_gather ?_ (ih passes.2)
    rintro rfl rfl
    exact absurd passes.1 (by decide)
  | label part yields ih =>
    rw [Rule.isSound, Bool.and_eq_true] at passes
    intro labelled found
    obtain ⟨node, member, rfl⟩ := List.mem_map.mp found
    obtain ⟨grammatical, isPart⟩ := ih passes.2 node member
    refine ⟨grammatical.withLabel part, fun inside => ?_⟩
    obtain ⟨kind, clause⟩ := isPart inside
    rw [Node.IsClassPart, Node.kind_withLabel, Node.label_withLabel, Node.namedParts_withLabel]
    refine ⟨kind, ?_⟩
    split
    next => exact clause
    next apart =>
      -- Only the superclass clause gets this label, and its shape is known.
      intro same
      cases same
      exact yields.length_namedParts_le (by simpa using passes.1) member (by simpa using apart)
  | bare _ _ => exact List.forall_mem_nil _
  | grow steps _ listed _ ih ih' =>
    -- All but the last node of the base stay as they are; the last one is wrapped step by step.
    rw [Rule.isSound, Bool.and_eq_true] at passes
    obtain ⟨front, left⟩ := List.forall_mem_append.mp (ih passes.1)
    rw [List.forall_mem_singleton] at left
    have sound_step : ∀ step ∈ steps, step.1.isSound inClass = true := fun step member =>
      Suffix.isSound_of_mem passes.2 (listed step member)
    refine List.forall_mem_append.mpr ⟨front, ?_⟩
    rw [List.forall_mem_singleton]
    exact Suffix.isAllowed_wrapAll left sound_step fun step member =>
      ih' step member (Suffix.isSound_rule (sound_step step member))
  | extend => cases passes
  | ref _ ih => exact ih (sound _ _)

end

/-- In the tree of any text, class declarations have parts of a class only. -/
theorem Grammar.isClassPart_of_parse (cs : List Char) {node part : Node}
    (within : node ∈ (parse cs).preorder) (isClass : node.kind = .classDeclaration)
    (member : part ∈ node.children) : part.IsClassPart := by
  suffices grammatical : (parse cs).IsGrammatical from grammatical.2 node within isClass part member
  refine Node.isGrammatical_of_children rfl ?_ (nofun : NodeKind.program = .classDeclaration → _)
  rw [parse, Rule.parse, Node.children, List.forall_mem_append]
  constructor
  · split
    next nodes _ fits =>
      intro child listed
      exact ((yields_of_run fits).isAllowed isSound_rules isSound_program child listed).1
    next => exact List.forall_mem_nil _
  · intro child listed
    obtain ⟨comment, _, rfl⟩ := List.mem_map.mp listed
    have kind := Node.kind_ne_of_comment comment.isComment_node
    exact (Node.isAllowed_of_leaf false rfl rfl kind).1

end JavaDiagram.Java
