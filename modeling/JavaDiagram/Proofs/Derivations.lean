import Mathlib.Data.List.Basic
import Mathlib.Data.List.TakeWhile
import JavaDiagram.Java.Rule

/-!
# What rules yield

The nodes that a rule can give, whatever the tokens are: one case for each way in which a rule is
applied. Positions, and which of several alternatives is kept, are left out. So a fact about the
shape of all trees is proved by induction on these cases and not on the fuel of a run.
-/

namespace JavaDiagram.Java

/-- The kind of the node that a rule makes of one token, if it takes one. -/
def Rule.tokenKind? : Rule → Option NodeKind
  | .exact _ | .glued _ => some .token
  | .nameExcept _ => some .identifier
  | .literal _ => some .literal
  | .skip => some .error
  | _ => none

/-- Whether a rule may fit without giving a node. -/
def Rule.mayBeEmpty : Rule → Bool
  | .empty | .atEnd | .many _ | .ahead _ | .notAhead _ => true
  | _ => false

/-- The node over a left node and all suffixes behind it, each given with its nodes. -/
def Suffix.wrapAll (left : Node) (steps : List (Suffix × List Node)) : Node :=
  steps.foldl (fun left step => step.1.wrap left step.2) left

/-- The lists of nodes that a rule can give. -/
inductive Yields (grammar : Phrase → Rule) : Rule → List Node → Prop where
  | nothing {rule : Rule} : rule.mayBeEmpty = true → Yields grammar rule []
  | token {rule : Rule} {kind : NodeKind} (item : Item) :
      rule.tokenKind? = some kind → Yields grammar rule (item.nodes kind)
  | fault (extent : Extent) : Yields grammar .fault [.leaf .error extent]
  | seq {first second : Rule} {nodes more : List Node} : Yields grammar first nodes →
      Yields grammar second more → Yields grammar (.seq first second) (nodes ++ more)
  | first {rule other : Rule} {nodes : List Node} : Yields grammar rule nodes →
      Yields grammar (.orElse rule other) nodes
  | second {rule other : Rule} {nodes : List Node} : Yields grammar other nodes →
      Yields grammar (.orElse rule other) nodes
  | again {rule : Rule} {nodes more : List Node} : Yields grammar rule nodes →
      Yields grammar (.many rule) more → Yields grammar (.many rule) (nodes ++ more)
  | node {rule : Rule} {nodes : List Node} (kind : NodeKind) : Yields grammar rule nodes →
      Yields grammar (.node kind rule) (gather kind nodes)
  | label {rule : Rule} {nodes : List Node} (part : NodeLabel) : Yields grammar rule nodes →
      Yields grammar (.label part rule) (nodes.map (·.withLabel part))
  | bare {base : Rule} {suffixes : List Suffix} : Yields grammar base [] →
      Yields grammar (.grow base suffixes) []
  | grow {base : Rule} {suffixes : List Suffix} {front : List Node} {left : Node}
      (steps : List (Suffix × List Node)) : Yields grammar base (front ++ [left]) →
      (∀ step ∈ steps, step.1 ∈ suffixes) → (∀ step ∈ steps, Yields grammar step.1.rule step.2) →
      Yields grammar (.grow base suffixes) (front ++ [Suffix.wrapAll left steps])
  | extend {left : Node} {suffixes : List Suffix} (steps : List (Suffix × List Node)) :
      (∀ step ∈ steps, step.1 ∈ suffixes) → (∀ step ∈ steps, Yields grammar step.1.rule step.2) →
      Yields grammar (.extend left suffixes) [Suffix.wrapAll left steps]
  | ref {phrase : Phrase} {nodes : List Node} : Yields grammar (grammar phrase) nodes →
      Yields grammar (.ref phrase) nodes

variable {grammar : Phrase → Rule}

/-! ### Inversion -/

namespace Yields

theorem of_exact {text : String} {nodes : List Node} (yields : Yields grammar (.exact text) nodes) :
    ∃ item : Item, nodes = item.nodes .token := by
  cases yields with
  | nothing no => cases no
  | token item takes => cases takes; exact ⟨item, rfl⟩

theorem of_seq {first second : Rule} {nodes : List Node}
    (yields : Yields grammar (.seq first second) nodes) :
    ∃ front back, Yields grammar first front ∧ Yields grammar second back ∧
      nodes = front ++ back := by
  cases yields with
  | nothing no => cases no
  | token _ no => cases no
  | seq front back => exact ⟨_, _, front, back, rfl⟩

theorem of_node {kind : NodeKind} {rule : Rule} {nodes : List Node}
    (yields : Yields grammar (.node kind rule) nodes) :
    ∃ below, Yields grammar rule below ∧ nodes = gather kind below := by
  cases yields with
  | nothing no => cases no
  | token _ no => cases no
  | node _ below => exact ⟨_, below, rfl⟩

theorem of_extend {left : Node} {suffixes : List Suffix} {nodes : List Node}
    (yields : Yields grammar (.extend left suffixes) nodes) :
    ∃ steps, (∀ step ∈ steps, step.1 ∈ suffixes) ∧
      (∀ step ∈ steps, Yields grammar step.1.rule step.2) ∧
      nodes = [Suffix.wrapAll left steps] := by
  cases yields with
  | nothing no => cases no
  | token _ no => cases no
  | extend steps listed applied => exact ⟨steps, listed, applied, rfl⟩

end Yields

/-! ### Runs -/

theorem yields_of_takeToken {input : ItemSequence} {index next : Nat} {kind : NodeKind}
    {test : Token → Bool} {rule : Rule} {nodes : List Node}
    (taken : takeToken input index kind test = some (nodes, next))
    (takes : rule.tokenKind? = some kind) : Yields grammar rule nodes := by
  unfold takeToken at taken
  split at taken
  next item _ =>
    split at taken
    · cases taken
      exact .token item takes
    · cases taken
  next => cases taken

/-- Whatever a run gives, its rule can give. -/
theorem yields_of_run {input : ItemSequence} {fuel : Nat} {rule : Rule} {index next : Nat}
    {nodes : List Node} (fits : rule.run grammar input fuel index = some (nodes, next)) :
    Yields grammar rule nodes := by
  -- A rule runs its parts, and itself once more, with less fuel.
  induction fuel generalizing rule index nodes next with
  | zero => cases fits
  | succ fuel ih =>
    cases rule with
    | empty => cases fits; exact .nothing rfl
    | atEnd =>
      simp only [Rule.run] at fits
      split at fits <;> cases fits
      exact .nothing rfl
    | exact _ | glued _ | nameExcept _ | literal _ | skip =>
      rw [Rule.run] at fits
      exact yields_of_takeToken fits rfl
    | fault => cases fits; exact .fault _
    | seq first second =>
      simp only [Rule.run, Option.bind_eq_bind, Option.bind_eq_some_iff] at fits
      obtain ⟨⟨front, middle⟩, front_fits, ⟨back, last⟩, back_fits, same⟩ := fits
      cases same
      exact .seq (ih front_fits) (ih back_fits)
    | orElse first second =>
      simp only [Rule.run] at fits
      split at fits
      next outcome first_fits =>
        cases fits
        exact .first (ih first_fits)
      next => exact .second (ih fits)
    | many rule =>
      simp only [Rule.run] at fits
      split at fits
      next => cases fits; exact .nothing rfl
      next front middle front_fits =>
        split at fits
        · simp only [Option.bind_eq_bind, Option.bind_eq_some_iff] at fits
          obtain ⟨⟨back, last⟩, back_fits, same⟩ := fits
          cases same
          exact .again (ih front_fits) (ih back_fits)
        · cases fits; exact .nothing rfl
    | ahead rule =>
      simp only [Rule.run, Option.map_eq_some_iff] at fits
      obtain ⟨_, _, same⟩ := fits
      cases same
      exact .nothing rfl
    | notAhead rule =>
      simp only [Rule.run] at fits
      split at fits <;> cases fits
      exact .nothing rfl
    | node kind rule =>
      simp only [Rule.run, Option.bind_eq_bind, Option.bind_eq_some_iff] at fits
      obtain ⟨⟨inner, last⟩, inner_fits, same⟩ := fits
      cases same
      exact .node kind (ih inner_fits)
    | label part rule =>
      simp only [Rule.run, Option.bind_eq_bind, Option.bind_eq_some_iff] at fits
      obtain ⟨⟨inner, last⟩, inner_fits, same⟩ := fits
      cases same
      exact .label part (ih inner_fits)
    | grow base suffixes =>
      simp only [Rule.run, Option.bind_eq_bind, Option.bind_eq_some_iff] at fits
      obtain ⟨⟨front, middle⟩, base_fits, fits⟩ := fits
      dsimp only at fits
      split at fits
      next none_left =>
        cases fits
        rw [List.getLast?_eq_none_iff] at none_left
        exact .bare (none_left ▸ ih base_fits)
      next left last_left =>
        simp only [Option.bind_eq_some_iff] at fits
        obtain ⟨⟨back, last⟩, back_fits, same⟩ := fits
        cases same
        -- The last node of the base is the one that the suffixes wrap.
        have based := ih base_fits
        rw [← List.dropLast_append_getLast? left last_left] at based
        obtain ⟨steps, listed, applied, rfl⟩ := (ih back_fits).of_extend
        exact .grow steps based listed applied
    | extend left suffixes =>
      simp only [Rule.run] at fits
      split at fits
      next wrapped next' found =>
        obtain ⟨suffix, listed, applied⟩ := List.exists_of_findSome?_eq_some found
        split at applied
        · obtain ⟨⟨right, last⟩, right_fits, same⟩ := Option.map_eq_some_iff.mp applied
          cases same
          obtain ⟨steps, listed', applied', rfl⟩ := (ih fits).of_extend
          exact .extend ((suffix, right) :: steps) (List.forall_mem_cons.mpr ⟨listed, listed'⟩)
            (List.forall_mem_cons.mpr ⟨ih right_fits, applied'⟩)
        · cases applied
      next =>
        cases fits
        exact .extend [] (List.forall_mem_nil _) (List.forall_mem_nil _)
    | ref phrase => exact .ref (ih fits)

/-! ### Comments among nodes -/

/-- What is put under a node are nodes of the list, and the comments in front of it stay. -/
theorem mem_gather {kind : NodeKind} {nodes : List Node} {node : Node}
    (member : node ∈ gather kind nodes) :
    (node ∈ nodes ∧ node.isComment = true) ∨
      node.kind = kind ∧ node.label = none ∧ node.children.Sublist nodes := by
  have in_front : ∀ comment ∈ nodes.takeWhile (·.isComment),
      comment ∈ nodes ∧ comment.isComment = true := fun comment listed =>
    ⟨(List.takeWhile_sublist _).subset listed, List.mem_takeWhile_imp listed⟩
  unfold gather at member
  dsimp only at member
  split at member
  next => exact Or.inl (in_front node member)
  next first rest same =>
    rcases List.mem_append.mp member with listed | is_whole
    · exact Or.inl (in_front node listed)
    · rw [List.mem_singleton.mp is_whole]
      refine Or.inr ⟨rfl, rfl, ?_⟩
      show (first :: rest).Sublist nodes
      rw [← same]
      exact List.dropWhile_sublist _

/-- At most one node comes of a list, its comments apart. -/
theorem length_filter_gather_le (kind : NodeKind) (nodes : List Node) :
    ((gather kind nodes).filter (!·.isComment)).length ≤ 1 := by
  have in_front : (nodes.takeWhile (·.isComment)).filter (!·.isComment) = [] := by
    apply List.filter_eq_nil_iff.mpr
    intro comment listed
    simp [List.mem_takeWhile_imp listed]
  unfold gather
  dsimp only
  split
  next => rw [in_front]; exact Nat.zero_le 1
  next first rest _ =>
    rw [List.filter_append, in_front, List.nil_append]
    exact List.length_filter_le _ [_]

theorem SourceComment.isComment_node (comment : SourceComment) : comment.node.isComment = true := by
  unfold SourceComment.node
  split <;> rfl

/-- The nodes of a token are leaves: the comments in front of it, and its own. -/
theorem Item.leaf_of_mem_nodes {item : Item} {kind : NodeKind} {node : Node}
    (member : node ∈ item.nodes kind) :
    node.label = none ∧ node.children = [] ∧ (node.isComment = true ∨ node.kind = kind) := by
  unfold Item.nodes at member
  rcases List.mem_append.mp member with listed | last
  · obtain ⟨comment, _, rfl⟩ := List.mem_map.mp listed
    exact ⟨rfl, rfl, Or.inl comment.isComment_node⟩
  · rw [List.mem_singleton.mp last]
    exact ⟨rfl, rfl, Or.inr rfl⟩

end JavaDiagram.Java
