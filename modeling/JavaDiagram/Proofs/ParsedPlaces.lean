import JavaDiagram.Proofs.ClassHeaders
import JavaDiagram.Proofs.LexemePlaces

/-!
# Where the nodes of a parsed source lie

A rule that is applied at a token gives nodes that lie one behind the other, between the end of the
token in front and the end of the last token that it takes. So the tree of every source text is
laid out in it.
-/

namespace JavaDiagram.Java

variable {source : SourceText}

/-- Whether nodes that lie in a source follow one another between two positions. -/
structure IsRow (source : SourceText) (first last : Nat) (nodes : List Node) : Prop where
  le : first ≤ last
  laidOut : ∀ node ∈ nodes, node.IsLaidOut source
  inside : ∀ node ∈ nodes, first ≤ node.extent.start ∧ node.extent.stop ≤ last
  apart : nodes.Pairwise fun front back => front.extent.stop ≤ back.extent.start

theorem Node.IsLaidOut.le {node : Node} (laid_out : node.IsLaidOut source) :
    node.extent.start ≤ node.extent.stop :=
  laid_out.proper node node.mem_preorder_self

/-- The nodes of a row start in order. -/
theorem IsRow.ordered {first last : Nat} {nodes : List Node} (row : IsRow source first last nodes) :
    nodes.Pairwise fun front back => front.extent.start ≤ back.extent.start :=
  row.apart.imp_of_mem fun listed _ apart => Nat.le_trans (row.laidOut _ listed).le apart

/-- A tree is laid out if its root is on its line and what is below is laid out in the root. -/
theorem Node.isLaidOut_iff {node : Node} :
    node.IsLaidOut source ↔ node.line = source.lineAt node.extent.start ∧
      IsRow source node.extent.start node.extent.stop node.children := by
  have self := node.mem_preorder_self
  constructor
  · intro laid_out
    exact ⟨laid_out.line node self, laid_out.le,
      fun child listed => laid_out.within (mem_preorder_of_child listed child.mem_preorder_self),
      laid_out.nested node self, laid_out.apart node self⟩
  · rintro ⟨line, row⟩
    -- A node of the tree is the root, or a node of a child.
    have each {property : Node → Prop} (root : property node)
        (below : ∀ child ∈ node.children, ∀ part ∈ child.preorder, property part) :
        ∀ part ∈ node.preorder, property part := by
      intro part member
      rcases mem_preorder_iff.mp member with rfl | deep
      · exact root
      · obtain ⟨child, listed, deep⟩ := exists_mem_preorderAll deep
        exact below child listed part deep
    refine ⟨⟨?_, ?_, ?_, ?_⟩, ?_⟩
    · exact each row.inside fun child listed => (row.laidOut child listed).nested
    · exact each row.le fun child listed => (row.laidOut child listed).proper
    · exact each line fun child listed => (row.laidOut child listed).line
    · exact each row.ordered fun child listed => (row.laidOut child listed).ordered
    · exact each row.apart fun child listed => (row.laidOut child listed).apart

namespace IsRow

variable {first middle last : Nat} {node : Node} {nodes front back rest : List Node}

theorem nil (le : first ≤ last) : IsRow source first last [] :=
  ⟨le, List.forall_mem_nil _, List.forall_mem_nil _, List.Pairwise.nil⟩

theorem append (before : IsRow source first middle front) (behind : IsRow source middle last back) :
    IsRow source first last (front ++ back) where
  le := Nat.le_trans before.le behind.le
  laidOut := List.forall_mem_append.mpr ⟨before.laidOut, behind.laidOut⟩
  inside := by
    have le := before.le
    have le' := behind.le
    refine List.forall_mem_append.mpr ⟨fun node listed => ?_, fun node listed => ?_⟩
    · have inside := before.inside node listed
      omega
    · have inside := behind.inside node listed
      omega
  apart := by
    refine List.pairwise_append.mpr ⟨before.apart, behind.apart, ?_⟩
    intro node listed other listed'
    exact Nat.le_trans (before.inside node listed).2 (behind.inside other listed').1

theorem split (front : List Node) (row : IsRow source first last (front ++ node :: rest)) :
    IsRow source first node.extent.start front ∧
      IsRow source node.extent.start last (node :: rest) := by
  obtain ⟨laid_out, laid_out'⟩ := List.forall_mem_append.mp row.laidOut
  obtain ⟨inside, inside'⟩ := List.forall_mem_append.mp row.inside
  obtain ⟨apart, apart', across⟩ := List.pairwise_append.mp row.apart
  have start := inside' node List.mem_cons_self
  have le := (laid_out' node List.mem_cons_self).le
  refine ⟨⟨start.1, laid_out, ?_, apart⟩, ⟨by omega, laid_out', ?_, apart'⟩⟩
  · exact fun other listed => ⟨(inside other listed).1, across other listed node List.mem_cons_self⟩
  · intro other listed
    refine ⟨?_, (inside' other listed).2⟩
    rcases List.mem_cons.mp listed with rfl | listed
    · exact Nat.le_refl _
    · exact Nat.le_trans le ((List.pairwise_cons.mp apart').1 other listed)

theorem le_getLast (row : IsRow source first last (node :: rest)) :
    ∀ other ∈ node :: rest, other.extent.stop ≤ (rest.getLast?.getD node).extent.stop := by
  rcases List.eq_nil_or_concat rest with rfl | ⟨front, final, rfl⟩
  · simp
  · rw [List.concat_eq_append] at row ⊢
    rw [List.getLast?_append, List.getLast?_singleton, Option.some_or, Option.getD_some,
      ← List.cons_append, List.forall_mem_append, List.forall_mem_singleton]
    refine ⟨fun other listed => ?_, Nat.le_refl _⟩
    have before := (List.pairwise_append.mp row.apart).2.2 other listed final (by simp)
    exact Nat.le_trans before (row.laidOut final (by simp)).le

/-- A node over a row lies where the row does. -/
theorem parent (row : IsRow source first last (node :: rest)) (kind : NodeKind) :
    IsRow source first last
      [.mk kind none (node.extent.upTo (rest.getLast?.getD node).extent) (node :: rest)] := by
  obtain ⟨_, tight⟩ := row.split []
  have final : rest.getLast?.getD node ∈ node :: rest := by
    cases found : rest.getLast? with
    | none => exact List.mem_cons_self
    | some final => exact List.mem_cons_of_mem _ (List.mem_of_getLast? found)
  have stop := row.le_getLast
  have start := row.inside node List.mem_cons_self
  have le := (row.laidOut node List.mem_cons_self).le
  have below : IsRow source node.extent.start (rest.getLast?.getD node).extent.stop
      (node :: rest) :=
    ⟨Nat.le_trans le (stop node List.mem_cons_self), tight.laidOut,
      fun other listed => ⟨(tight.inside other listed).1, stop other listed⟩, tight.apart⟩
  refine ⟨row.le, List.forall_mem_singleton.mpr ?_, List.forall_mem_singleton.mpr ?_,
    List.pairwise_singleton _ _⟩
  · exact Node.isLaidOut_iff.mpr
      ⟨(row.laidOut node List.mem_cons_self).line node node.mem_preorder_self, below⟩
  · exact ⟨start.1, (row.inside _ final).2⟩

theorem gather (row : IsRow source first last nodes) (kind : NodeKind) :
    IsRow source first last (gather kind nodes) := by
  have cut := List.takeWhile_append_dropWhile (p := Node.isComment) (l := nodes)
  unfold Java.gather
  dsimp only
  split
  next nothing =>
    rw [nothing, List.append_nil] at cut
    rw [cut]
    exact row
  next head rest found =>
    rw [found] at cut
    rw [← cut] at row
    obtain ⟨comments, others⟩ := row.split _
    exact comments.append (others.parent kind)

end IsRow

/-! ### Labels -/

theorem Node.extent_withLabel (label : NodeLabel) (node : Node) :
    (node.withLabel label).extent = node.extent := by
  obtain ⟨kind, old, extent, children⟩ := node
  rw [withLabel]
  split_ifs <;> rfl

theorem Node.IsLaidOut.withLabel {node : Node} (laid_out : node.IsLaidOut source) (label : NodeLabel) :
    (node.withLabel label).IsLaidOut source := by
  rw [Node.isLaidOut_iff] at laid_out ⊢
  rw [Node.line, Node.extent_withLabel, Node.children_withLabel]
  exact laid_out

theorem IsRow.map_withLabel {first last : Nat} {nodes : List Node}
    (row : IsRow source first last nodes) (label : NodeLabel) :
    IsRow source first last (nodes.map (·.withLabel label)) where
  le := row.le
  laidOut := List.forall_mem_map.mpr fun node listed => (row.laidOut node listed).withLabel label
  inside := List.forall_mem_map.mpr fun node listed => by
    rw [Node.extent_withLabel]
    exact row.inside node listed
  apart := List.pairwise_map.mpr (row.apart.imp fun le => by
    rw [Node.extent_withLabel, Node.extent_withLabel]
    exact le)

/-- A node that a suffix makes lies where the node in front of it and those behind do. -/
theorem Suffix.isRow_wrap {first last : Nat} {left : Node} {right : List Node}
    (row : IsRow source first last (left :: right)) (suffix : Suffix) :
    IsRow source first last [suffix.wrap left right] := by
  obtain ⟨behind, kind, label, rule⟩ := suffix
  cases label with
  | none => exact row.parent kind
  | some label =>
    -- A label moves no node.
    have labelled : IsRow source first last (left.withLabel label :: right) := by
      obtain ⟨laid_out, laid_out'⟩ := List.forall_mem_cons.mp row.laidOut
      obtain ⟨inside, inside'⟩ := List.forall_mem_cons.mp row.inside
      refine ⟨row.le, List.forall_mem_cons.mpr ⟨laid_out.withLabel label, laid_out'⟩,
        List.forall_mem_cons.mpr ⟨?_, inside'⟩, ?_⟩
      · rw [Node.extent_withLabel]
        exact inside
      · rw [List.pairwise_cons, Node.extent_withLabel]
        exact List.pairwise_cons.mp row.apart
    have whole := labelled.parent kind
    have extents : (right.getLast?.getD (left.withLabel label)).extent =
        (right.getLast?.getD left).extent := by
      cases right.getLast? with
      | none => exact Node.extent_withLabel label left
      | some final => rfl
    rw [extents, Node.extent_withLabel] at whole
    exact whole

/-! ### Tokens -/

namespace ItemSequence.IsPlaced

variable {input : ItemSequence}

theorem gapAfter (placed : input.IsPlaced source) (count : Nat) :
    (input.gapAfter count).start = (input.gapAfter count).stop ∧
      (input.gapAfter count).line = source.lineAt (input.gapAfter count).start := by
  cases count with
  | zero => exact ⟨rfl, rfl⟩
  | succ last =>
    unfold ItemSequence.gapAfter
    dsimp only
    split
    next comments token found =>
      obtain ⟨inside, same⟩ := Array.getElem?_eq_some_iff.mp found
      have listed : (⟨comments, token⟩ : Item) ∈ input.items.toList := by
        rw [← same]
        exact Array.getElem_mem_toList inside
      exact ⟨rfl, placed.lineBehind _ listed⟩
    next => exact ⟨rfl, rfl⟩

theorem gapAfter_succ {index : Nat} {item : Item} (found : input.items[index]? = some item) :
    (input.gapAfter (index + 1)).stop = item.token.extent.stop := by
  simp only [ItemSequence.gapAfter, found]

/-- A token and the comments in front of it lie behind the token before. -/
theorem gapAfter_le (placed : input.IsPlaced source) {index : Nat} {item : Item}
    (found : input.items[index]? = some item) {extent : Extent} (listed : extent ∈ item.extents) :
    (input.gapAfter index).stop ≤ extent.start := by
  cases index with
  | zero => exact Nat.zero_le _
  | succ last =>
    obtain ⟨inside, rfl⟩ := Array.getElem?_eq_some_iff.mp found
    have before : last < input.items.size := by omega
    rw [gapAfter_succ (Array.getElem?_eq_getElem before)]
    have items := (List.pairwise_flatMap.mp (List.pairwise_append.mp placed.apart).1).2
    have pair := List.pairwise_iff_getElem.mp items last (last + 1) (by simpa using before)
      (by simpa using inside) (Nat.lt_succ_self last)
    exact pair input.items[last].token.extent (by simp [Item.extents]) extent
      (by simpa using listed)

theorem gapAfter_stop_le {bound : Nat}
    (tokens : ∀ item ∈ input.items.toList, item.token.extent.stop ≤ bound) (count : Nat) :
    (input.gapAfter count).stop ≤ bound := by
  cases count with
  | zero => exact Nat.zero_le _
  | succ last =>
    cases found : input.items[last]? with
    | none => simp only [ItemSequence.gapAfter, found, Nat.zero_le]
    | some item =>
      obtain ⟨inside, same⟩ := Array.getElem?_eq_some_iff.mp found
      rw [gapAfter_succ found]
      exact tokens item (same ▸ Array.getElem_mem_toList inside)

end ItemSequence.IsPlaced

/-- Leaves over extents that lie in a source one behind the other are a row. -/
theorem isRow_of_leaves {first last : Nat} {nodes : List Node} (le : first ≤ last)
    (bare : ∀ node ∈ nodes, node.children = [])
    (parts : ∀ extent ∈ nodes.map (·.extent),
      extent.IsPart source ∧ first ≤ extent.start ∧ extent.stop ≤ last)
    (apart : AreApart (nodes.map (·.extent))) : IsRow source first last nodes := by
  rw [List.forall_mem_map] at parts
  refine ⟨le, fun node listed => ?_, fun node listed => (parts node listed).2,
    List.pairwise_map.mp apart⟩
  rw [Node.isLaidOut_iff, bare node listed]
  exact ⟨(parts node listed).1.line, IsRow.nil (parts node listed).1.proper⟩

/-- The nodes of a token lie between the end of the token in front and its own end. -/
theorem Item.isRow_nodes {input : ItemSequence} (placed : input.IsPlaced source) {index : Nat}
    {item : Item} (found : input.items[index]? = some item) (kind : NodeKind) :
    IsRow source (input.gapAfter index).stop (input.gapAfter (index + 1)).stop
      (item.nodes kind) := by
  obtain ⟨inside, same⟩ := Array.getElem?_eq_some_iff.mp found
  have listed : item ∈ input.items.toList := same ▸ Array.getElem_mem_toList inside
  have part {extent : Extent} (member : extent ∈ item.extents) : extent.IsPart source :=
    placed.parts _ (List.mem_append_left _ (List.mem_flatMap.mpr ⟨item, listed, member⟩))
  have apart : AreApart item.extents :=
    (List.pairwise_flatMap.mp (List.pairwise_append.mp placed.apart).1).1 item listed
  have extents : (item.nodes kind).map (·.extent) = item.extents := by
    rw [Item.nodes, List.map_append, List.map_map]
    rfl
  have own : item.token.extent ∈ item.extents := by simp [Item.extents]
  -- The token is the last of its nodes.
  have stop {extent : Extent} (member : extent ∈ item.extents) :
      extent.stop ≤ item.token.extent.stop := by
    rcases List.mem_append.mp member with comment | isToken
    · exact Nat.le_trans ((List.pairwise_append.mp apart).2.2 _ comment _ List.mem_cons_self)
        (part own).proper
    · rw [List.mem_singleton.mp isToken]
  rw [ItemSequence.IsPlaced.gapAfter_succ found]
  apply isRow_of_leaves
  · exact Nat.le_trans (placed.gapAfter_le found own) (part own).proper
  · exact fun node member => (Item.leaf_of_mem_nodes member).2.1
  · rw [extents]
    exact fun extent member => ⟨part member, placed.gapAfter_le found member, stop member⟩
  · rw [extents]
    exact apart

/-! ### Runs -/

/-- Whether nodes lead from a position in front of a token to the end of the token in front of
another, which is no earlier one. -/
structure Spans (source : SourceText) (input : ItemSequence) (first index : Nat)
    (nodes : List Node) (next : Nat) : Prop where
  le : index ≤ next
  inside : next ≤ input.items.size
  row : IsRow source first (input.gapAfter next).stop nodes

section

variable {grammar : Phrase → Rule} {input : ItemSequence} {inClass : Bool}

theorem Spans.stay {index : Nat} (inside : index ≤ input.items.size) :
    Spans source input (input.gapAfter index).stop index [] index :=
  ⟨Nat.le_refl _, inside, IsRow.nil (Nat.le_refl _)⟩

theorem Spans.append {first index middle next : Nat} {front back : List Node}
    (before : Spans source input first index front middle)
    (behind : Spans source input (input.gapAfter middle).stop middle back next) :
    Spans source input first index (front ++ back) next :=
  ⟨Nat.le_trans before.le behind.le, behind.inside, before.row.append behind.row⟩

theorem spans_of_takeToken (placed : input.IsPlaced source) {index next : Nat} {kind : NodeKind}
    {test : Token → Bool} {nodes : List Node}
    (taken : takeToken input index kind test = some (nodes, next)) :
    Spans source input (input.gapAfter index).stop index nodes next := by
  unfold takeToken at taken
  split at taken
  next item found =>
    obtain ⟨inside, _⟩ := Array.getElem?_eq_some_iff.mp found
    split at taken <;> cases taken
    exact ⟨Nat.le_succ _, inside, Item.isRow_nodes placed found kind⟩
  next => cases taken

/-- The nodes of a run lead from the token at which a rule is applied to the one behind all that it
takes. A sound rule holds no node of its own; where suffixes wrap a node, it has to lie in front of
them. -/
theorem spans_of_run (placed : input.IsPlaced source)
    (sound : ∀ phrase inClass, (grammar phrase).isSound inClass = true) (fuel : Nat) :
    (∀ {rule : Rule} {inClass : Bool} {index next : Nat} {nodes : List Node},
      rule.isSound inClass = true → index ≤ input.items.size →
      rule.run grammar input fuel index = some (nodes, next) →
      Spans source input (input.gapAfter index).stop index nodes next) ∧
    ∀ {left : Node} {suffixes : List Suffix} {inClass : Bool} {first index next : Nat}
      {nodes : List Node}, suffixesSound inClass suffixes = true → index ≤ input.items.size →
      IsRow source first (input.gapAfter index).stop [left] →
      (Rule.extend left suffixes).run grammar input fuel index = some (nodes, next) →
      Spans source input first index nodes next := by
  induction fuel with
  | zero =>
    constructor
    · intro rule inClass index next nodes _ _ fits
      cases fits
    · intro left suffixes inClass first index next nodes _ _ _ fits
      cases fits
  | succ fuel ih =>
    obtain ⟨ih, wrapped⟩ := ih
    constructor
    · intro rule inClass index next nodes passes inside fits
      cases rule with
      | empty => cases fits; exact .stay inside
      | atEnd =>
        simp only [Rule.run] at fits
        split at fits <;> cases fits
        exact .stay inside
      | exact _ | glued _ | nameExcept _ | literal _ | skip =>
        rw [Rule.run] at fits
        exact spans_of_takeToken placed fits
      | fault =>
        cases fits
        have gap := placed.gapAfter index
        refine ⟨Nat.le_refl _, inside, Nat.le_refl _, List.forall_mem_singleton.mpr ?_,
          List.forall_mem_singleton.mpr ⟨Nat.le_of_eq gap.1.symm, Nat.le_refl _⟩,
          List.pairwise_singleton _ _⟩
        exact Node.isLaidOut_iff.mpr ⟨gap.2, IsRow.nil (Nat.le_of_eq gap.1)⟩
      | seq first second =>
        rw [Rule.isSound, Bool.and_eq_true] at passes
        simp only [Rule.run, Option.bind_eq_bind, Option.bind_eq_some_iff] at fits
        obtain ⟨⟨front, middle⟩, front_fits, ⟨back, last⟩, back_fits, same⟩ := fits
        cases same
        have before := ih passes.1 inside front_fits
        exact before.append (ih passes.2 before.inside back_fits)
      | orElse first second =>
        rw [Rule.isSound, Bool.and_eq_true] at passes
        simp only [Rule.run] at fits
        split at fits
        next outcome first_fits =>
          cases fits
          exact ih passes.1 inside first_fits
        next => exact ih passes.2 inside fits
      | many rule =>
        have once := passes
        rw [Rule.isSound] at once
        simp only [Rule.run] at fits
        split at fits
        next => cases fits; exact .stay inside
        next front middle front_fits =>
          split at fits
          · simp only [Option.bind_eq_bind, Option.bind_eq_some_iff] at fits
            obtain ⟨⟨back, last⟩, back_fits, same⟩ := fits
            cases same
            have before := ih once inside front_fits
            exact before.append (ih passes before.inside back_fits)
          · cases fits; exact .stay inside
      | ahead rule =>
        simp only [Rule.run, Option.map_eq_some_iff] at fits
        obtain ⟨_, _, same⟩ := fits
        cases same
        exact .stay inside
      | notAhead rule =>
        simp only [Rule.run] at fits
        split at fits <;> cases fits
        exact .stay inside
      | node kind rule =>
        rw [Rule.isSound, Bool.and_eq_true] at passes
        simp only [Rule.run, Option.bind_eq_bind, Option.bind_eq_some_iff] at fits
        obtain ⟨⟨inner, last⟩, inner_fits, same⟩ := fits
        cases same
        obtain ⟨le, inside, row⟩ := ih passes.2 inside inner_fits
        exact ⟨le, inside, row.gather kind⟩
      | label part rule =>
        rw [Rule.isSound, Bool.and_eq_true] at passes
        simp only [Rule.run, Option.bind_eq_bind, Option.bind_eq_some_iff] at fits
        obtain ⟨⟨inner, last⟩, inner_fits, same⟩ := fits
        cases same
        obtain ⟨le, inside, row⟩ := ih passes.2 inside inner_fits
        exact ⟨le, inside, row.map_withLabel part⟩
      | grow base suffixes =>
        rw [Rule.isSound, Bool.and_eq_true] at passes
        simp only [Rule.run, Option.bind_eq_bind, Option.bind_eq_some_iff] at fits
        obtain ⟨⟨front, middle⟩, base_fits, fits⟩ := fits
        have based := ih passes.1 inside base_fits
        dsimp only at fits
        split at fits
        next =>
          cases fits
          exact ⟨based.le, based.inside, IsRow.nil based.row.le⟩
        next left last_left =>
          simp only [Option.bind_eq_some_iff] at fits
          obtain ⟨⟨back, last⟩, back_fits, same⟩ := fits
          cases same
          -- The last node of the base is wrapped where it lies; the others stay in front of it.
          have row := based.row
          rw [← List.dropLast_append_getLast? left last_left] at row
          obtain ⟨others, wrappable⟩ := row.split _
          have grown := wrapped passes.2 based.inside wrappable back_fits
          exact ⟨Nat.le_trans based.le grown.le, grown.inside, others.append grown.row⟩
      | extend left suffixes => cases passes
      | ref phrase => exact ih (sound phrase inClass) inside fits
    · intro left suffixes inClass first index next nodes passes inside row fits
      simp only [Rule.run] at fits
      split at fits
      next larger middle found =>
        obtain ⟨suffix, listed, applied⟩ := List.exists_of_findSome?_eq_some found
        split at applied
        · obtain ⟨⟨right, last⟩, right_fits, same⟩ := Option.map_eq_some_iff.mp applied
          cases same
          have behind := ih (Suffix.isSound_rule (Suffix.isSound_of_mem passes listed)) inside
            right_fits
          have around := Suffix.isRow_wrap (row.append behind.row) suffix
          have rest := wrapped passes behind.inside around fits
          exact ⟨Nat.le_trans behind.le rest.le, rest.inside, rest.row⟩
        · cases applied
      next =>
        cases fits
        exact ⟨Nat.le_refl _, inside, row⟩

end

/-! ### Trees -/

/-- The nodes of the tree of a text lie in it without overlaps, whatever the text is. -/
theorem Grammar.isLaidOut_parse (cs : List Char) : (parse cs).IsLaidOut cs.toArray := by
  have placed := ItemSequence.isPlaced_ofLexemes cs
  unfold parse Rule.parse
  dsimp only
  generalize ItemSequence.ofLexemes (lexemes cs) = input at placed ⊢
  have across := (List.pairwise_append.mp placed.apart).2
  have token {item : Item} (listed : item ∈ input.items.toList) :
      item.token.extent ∈ input.items.toList.flatMap Item.extents :=
    List.mem_flatMap.mpr ⟨item, listed, by simp [Item.extents]⟩
  have inside (count : Nat) : (input.gapAfter count).stop ≤ cs.length :=
    ItemSequence.IsPlaced.gapAfter_stop_le (fun item listed =>
      (placed.parts _ (List.mem_append_left _ (token listed))).inside) count
  -- The comments behind the last token lie behind every token.
  have trailing (count : Nat) : IsRow cs.toArray (input.gapAfter count).stop cs.length
      (input.trailing.map (·.node)) := by
    have extents : (input.trailing.map (·.node)).map (·.extent) =
        input.trailing.map (·.extent) := by
      rw [List.map_map]
      rfl
    apply isRow_of_leaves (inside count)
    · rw [List.forall_mem_map]
      exact fun comment _ => rfl
    · rw [extents]
      intro extent listed
      have part := placed.parts extent (List.mem_append_right _ listed)
      exact ⟨part, ItemSequence.IsPlaced.gapAfter_stop_le (fun item member =>
        across.2 _ (token member) extent listed) count, part.inside⟩
    · rw [extents]
      exact across.1
  refine Node.isLaidOut_iff.mpr ⟨rfl, ?_⟩
  split
  next nodes next fits =>
    have spans := (spans_of_run placed isSound_rules _).1 isSound_program (Nat.zero_le _) fits
    exact spans.row.append (trailing next)
  next => exact trailing 0

end JavaDiagram.Java
