import JavaDiagram.Proofs.CallChains
import JavaDiagram.Proofs.Entries

/-!
# Depth that is enough

The open methods of a walk have distinct keys, and each of these is the key of a record of the model.
A walk that may open more methods than the model has keys is therefore never cut, and what it draws
does not change when it may go deeper still. One level less is not enough: a cycle through all keys
is then cut where it would close.
-/

namespace JavaDiagram

/-! ### Keys of a model -/

/-- The distinct pairs of owner and name of the method records of a model. -/
def methodKeys (model : CodeModel) : List (String × String) :=
  (model.methods.values.flatten.map (·.key)).eraseDups

theorem key_mem_of_listed {model : CodeModel} {method : MethodRecord}
    (listed : method ∈ model.methods.values.flatten) : method.key ∈ methodKeys model :=
  List.mem_eraseDups.mpr (List.mem_map.mpr ⟨method, listed, rfl⟩)

theorem key_mem_of_findMethod {model : CodeModel} {owner name : String} {method : MethodRecord}
    (found : model.findMethod owner name = some method) : method.key ∈ methodKeys model := by
  have member : method ∈ (model.methods.get? owner).getD [] := List.mem_of_find?_eq_some found
  cases records : model.methods.get? owner with
  | none => simp [records] at member
  | some methods =>
    rw [records, Option.getD_some] at member
    have stored : methods ∈ model.methods.values :=
      List.mem_map.mpr ⟨(owner, methods), Table.mem_entries_of_get? records, rfl⟩
    exact key_mem_of_listed (List.mem_flatten.mpr ⟨methods, stored, member⟩)

/-! ### Walks that are never cut -/

/-- Whether a walk with the methods of `path` open may open more than there are keys left. -/
structure EnoughLeft (model : CodeModel) (path : List (String × String)) (remaining : Nat) :
    Prop where
  distinct : path.Nodup
  known : path ⊆ methodKeys model
  enough : (methodKeys model).length < path.length + remaining

theorem enoughLeft_start {model : CodeModel} {remaining : Nat}
    (enough : (methodKeys model).length + 1 ≤ remaining) : EnoughLeft model [] remaining := by
  refine ⟨List.nodup_nil, List.nil_subset _, ?_⟩
  rw [List.length_nil]
  omega

/-- As many methods as there are keys cannot be exceeded, so one more may be opened. -/
theorem EnoughLeft.exists_succ {model : CodeModel} {path : List (String × String)}
    {remaining : Nat} (left : EnoughLeft model path remaining) :
    ∃ fewer, remaining = fewer + 1 := by
  have bounded := left.distinct.length_le_of_subset left.known
  have enough := left.enough
  exact Nat.exists_eq_add_one.mpr (by omega)

theorem EnoughLeft.enter {model : CodeModel} {path : List (String × String)} {remaining : Nat}
    (left : EnoughLeft model path (remaining + 1)) {key : String × String} (fresh : key ∉ path)
    (known : key ∈ methodKeys model) : EnoughLeft model (key :: path) remaining := by
  have enough := left.enough
  refine ⟨List.nodup_cons.mpr ⟨fresh, left.distinct⟩, ?_, ?_⟩
  · exact List.cons_subset.mpr ⟨known, left.known⟩
  · rw [List.length_cons]
    omega

/-- Two walks that both have enough left draw the same. -/
theorem expansion_eq_of_enoughLeft {model : CodeModel} {remaining remaining' : Nat}
    {path : List (String × String)} {method : MethodRecord} (caller : String)
    (left : EnoughLeft model path remaining) (left' : EnoughLeft model path remaining')
    (known : method.key ∈ methodKeys model) :
    expansion model remaining path method caller =
      expansion model remaining' path method caller := by
  -- By recursion on one of the depths; the other one follows, since neither can run out.
  induction remaining generalizing remaining' path method caller with
  | zero =>
    obtain ⟨_, impossible⟩ := left.exists_succ
    cases impossible
  | succ remaining ih =>
    obtain ⟨remaining', rfl⟩ := left'.exists_succ
    by_cases repeated : method.key ∈ path
    · rw [expansion_of_mem caller repeated, expansion_of_mem caller repeated]
    · rw [expansion_of_not_mem caller repeated, expansion_of_not_mem caller repeated]
      -- Both walks have opened the same method, so they stay side by side in each of its calls.
      apply List.flatMap_congr
      intro call _
      apply callSteps_congr
      intro callee found
      exact ih call.target (left.enter repeated known) (left'.enter repeated known)
        (key_mem_of_findMethod found)

theorem repeatNote_ne_depthNote (name : String) : repeatNote name ≠ depthNote := by
  intro same
  -- Whatever the name is, the two notes differ in their last letters.
  have ends := congrArg (fun text : String => text.toList.reverse.take 4) same
  simp [repeatNote, depthNote] at ends

/-- A walk that has enough left is not cut. -/
theorem depthNote_not_mem_expansion {model : CodeModel} {remaining : Nat}
    {path : List (String × String)} {method : MethodRecord} {caller : String}
    (left : EnoughLeft model path remaining) (known : method.key ∈ methodKeys model)
    (subject : String) :
    .note subject depthNote ∉ expansion model remaining path method caller := by
  induction remaining generalizing path method caller with
  | zero =>
    -- The only place where the walk is cut, and the keys would have run out before.
    obtain ⟨_, impossible⟩ := left.exists_succ
    cases impossible
  | succ remaining ih =>
    by_cases repeated : method.key ∈ path
    · rw [expansion_of_mem caller repeated, List.mem_singleton]
      intro same
      exact repeatNote_ne_depthNote method.name (Step.note.inj same).2.symm
    · rw [expansion_of_not_mem caller repeated]
      intro member
      obtain ⟨call, _, member⟩ := List.mem_flatMap.mp member
      obtain ⟨_, same | ⟨_, same⟩ | ⟨callee, _, found, inner⟩⟩ := callSteps_cases member
      · have called := callee?_message model caller call
        rw [← same] at called
        cases called
      · cases same
      · exact ih (left.enter repeated known) (key_mem_of_findMethod found) inner

/-! ### Cycles through all keys -/

/-- A chain of calls on which every key of the model comes up once, and whose last method calls the
first one. -/
structure FullCycle (model : CodeModel) (entry last : MethodRecord) (chain : List MethodRecord) :
    Prop where
  simple : SimpleChain model last chain
  first : chain.head? = some entry
  closes : Follows model last entry
  full : chain.length = (methodKeys model).length

/-- Where a full cycle closes, its first method is visited once more inside all the others. -/
theorem FullCycle.mem_expansion {model : CodeModel} (owned : CodeModel.Owned model.methods)
    {entry last : MethodRecord} {chain : List MethodRecord}
    (cycle : FullCycle model entry last chain) {remaining : Nat} {step : Step}
    (member : step ∈ expansion model remaining (chain.map (·.key)).reverse entry entry.owner) :
    step ∈ expansion model ((methodKeys model).length + remaining) [] entry entry.owner := by
  obtain ⟨simple, first, closes, full⟩ := cycle
  -- All the others are open when the last method is reached, and it opens itself before it calls.
  have outside : ∀ other ∈ chain, other.key ∉ ([] : List (String × String)) :=
    fun _ _ => List.not_mem_nil
  have split : chain.dropLast ++ [last] = chain := List.dropLast_append_getLast? last simple.final
  have fresh := simple.last_fresh outside
  rw [List.append_nil] at fresh
  rw [← split, List.map_append, List.map_singleton, List.reverse_append, List.reverse_singleton,
    List.singleton_append] at member
  have inner := mem_expansion_of_follows owned fresh closes member
  cases chain with
  | nil => cases first
  | cons head rest =>
    obtain rfl := Option.some.inj first
    rw [← full, List.length_cons, Nat.add_assoc, Nat.add_comm 1]
    apply mem_expansion_of_last owned (remaining + 1) [] head simple outside
    rw [List.append_nil]
    exact inner

/-- With as much depth as there are keys a full cycle is cut where it closes. -/
theorem FullCycle.cut {model : CodeModel} (owned : CodeModel.Owned model.methods)
    {entry last : MethodRecord} {chain : List MethodRecord}
    (cycle : FullCycle model entry last chain) :
    .note entry.owner depthNote ∈
      expansion model (methodKeys model).length [] entry entry.owner := by
  have closing : .note entry.owner depthNote ∈
      expansion model 0 (chain.map (·.key)).reverse entry entry.owner :=
    List.mem_singleton_self _
  exact cycle.mem_expansion owned closing

/-- With more depth a full cycle ends at the method that is open already. -/
theorem FullCycle.repeats {model : CodeModel} (owned : CodeModel.Owned model.methods)
    {entry last : MethodRecord} {chain : List MethodRecord}
    (cycle : FullCycle model entry last chain) {remaining : Nat}
    (enough : (methodKeys model).length + 1 ≤ remaining) :
    .note entry.owner (repeatNote entry.name) ∈ expansion model remaining [] entry entry.owner := by
  obtain ⟨more, rfl⟩ := Nat.exists_eq_add_of_le enough
  rw [Nat.add_assoc, Nat.add_comm 1]
  apply cycle.mem_expansion owned
  have opened : entry.key ∈ (chain.map (·.key)).reverse := by
    have member := List.mem_of_head? cycle.first
    exact List.mem_reverse.mpr (List.mem_map.mpr ⟨entry, member, rfl⟩)
  rw [expansion_of_mem entry.owner opened]
  exact List.mem_singleton_self _

/-! ### Entries -/

theorem SequenceDiagram.mem_notes {diagram : SequenceDiagram} {text : String} :
    text ∈ diagram.notes ↔ ∃ subject, .note subject text ∈ diagram.steps.toList := by
  rw [notes, List.mem_filterMap]
  constructor
  · rintro ⟨step, member, same⟩
    cases step with
    | note subject other => exact ⟨subject, Option.some.inj same ▸ member⟩
    | message | «break» => cases same
  · rintro ⟨subject, member⟩
    exact ⟨_, member, rfl⟩

theorem entrySteps_eq_of_enoughLeft {model : CodeModel} {options options' : WalkOptions}
    {path : List (String × String)} {entry : MethodRecord} (className : String)
    (left : EnoughLeft model path options.clamped.maxDepth)
    (left' : EnoughLeft model path options'.clamped.maxDepth)
    (known : entry.key ∈ methodKeys model) :
    entrySteps model options path className entry =
      entrySteps model options' path className entry := by
  rw [entrySteps, entrySteps, expansion_eq_of_enoughLeft className left left' known]

theorem depthNote_not_mem_entrySteps {model : CodeModel} {options : WalkOptions}
    {path : List (String × String)} {entry : MethodRecord} {className : String}
    (left : EnoughLeft model path options.clamped.maxDepth)
    (known : entry.key ∈ methodKeys model) (subject : String) :
    .note subject depthNote ∉ entrySteps model options path className entry := by
  simp [entrySteps, depthNote_not_mem_expansion left known subject]

theorem key_mem_of_selected {model : CodeModel} {options : WalkOptions} {entry : MethodRecord}
    (selected : entry ∈ selectedEntries model options) : entry.key ∈ methodKeys model := by
  rw [selectedEntries, List.flatMap_def] at selected
  have candidate := List.mem_of_mem_take selected
  exact key_mem_of_listed (List.mem_filter.mp candidate).1

/-- Whether a walk may open more methods than the model has keys. -/
def WalkOptions.Saturate (options : WalkOptions) (model : CodeModel) : Prop :=
  (methodKeys model).length + 1 ≤ min options.maxDepth 64

instance (options : WalkOptions) (model : CodeModel) : Decidable (options.Saturate model) :=
  inferInstanceAs (Decidable (_ ≤ _))

theorem traceEntry_of_saturate {model : CodeModel} {options options' : WalkOptions}
    (saturate : options.Saturate model) (saturate' : options'.Saturate model)
    (className methodName : String) :
    traceEntry model className methodName options =
        traceEntry model className methodName options' ∧
      depthNote ∉ (traceEntry model className methodName options).notes := by
  cases found : model.findMethod className methodName with
  | none =>
    rw [traceEntry_of_missing options found, traceEntry_of_missing options' found]
    refine ⟨rfl, fun member => ?_⟩
    -- The one note of a missing method starts with another letter.
    have same : depthNote = "Method '" ++ methodName ++ "' not found" := List.mem_singleton.mp member
    have starts := congrArg (fun text : String => text.toList.head?) same
    simp [depthNote] at starts
  | some entry =>
    have known := key_mem_of_findMethod found
    have left : EnoughLeft model [] options.clamped.maxDepth := enoughLeft_start saturate
    have left' : EnoughLeft model [] options'.clamped.maxDepth := enoughLeft_start saturate'
    constructor
    · rw [traceEntry_eq_draw options found, traceEntry_eq_draw options' found,
        entrySteps_eq_of_enoughLeft className left left' known]
    · intro member
      obtain ⟨subject, member⟩ := SequenceDiagram.mem_notes.mp member
      rw [traceEntry_eq_draw options found, SequenceDiagram.steps_draw] at member
      exact depthNote_not_mem_entrySteps left known subject member

theorem traceAllEntries_of_saturate {model : CodeModel} {options options' : WalkOptions}
    (saturate : options.Saturate model) (saturate' : options'.Saturate model)
    (entries : options.maxEntries = options'.maxEntries) :
    traceAllEntries model options = traceAllEntries model options' ∧
      depthNote ∉ (traceAllEntries model options).notes := by
  have selected : selectedEntries model options = selectedEntries model options' := by
    rw [selectedEntries, selectedEntries, entries]
  have left : EnoughLeft model [] options.clamped.maxDepth := enoughLeft_start saturate
  have left' : EnoughLeft model [] options'.clamped.maxDepth := enoughLeft_start saturate'
  -- The selection does not depend on the depth, so both traces have the same entries, if any.
  by_cases none : selectedEntries model options = []
  · rw [traceAllEntries_of_none none, traceAllEntries_of_none (selected ▸ none)]
    exact ⟨rfl, by decide⟩
  · rw [traceAllEntries_eq_draw none, traceAllEntries_eq_draw (selected ▸ none), ← selected]
    constructor
    · congr 1
      apply List.flatMap_congr
      intro entry member
      rw [steps_entryAlone, steps_entryAlone,
        entrySteps_eq_of_enoughLeft entry.owner left left' (key_mem_of_selected member)]
    · intro member
      obtain ⟨subject, member⟩ := SequenceDiagram.mem_notes.mp member
      rw [SequenceDiagram.steps_draw] at member
      obtain ⟨entry, chosen, member⟩ := List.mem_flatMap.mp member
      rw [steps_entryAlone] at member
      rcases List.mem_append.mp member with member | member
      · exact depthNote_not_mem_entrySteps left (key_mem_of_selected chosen) subject member
      · cases List.mem_singleton.mp member

theorem mem_traceEntry_of_mem_expansion {model : CodeModel} {entry : MethodRecord}
    (resolved : Resolved model entry) (options : WalkOptions) {step : Step}
    (member : step ∈ expansion model (min options.maxDepth 64) [] entry entry.owner) :
    step ∈ (traceEntry model entry.owner entry.name options).steps.toList := by
  rw [traceEntry_eq_draw options resolved, SequenceDiagram.steps_draw]
  exact List.mem_append_right _ (List.mem_cons_of_mem _ (List.mem_append_left _ member))

/-- Once a walk may go one level deeper than there are keys, no trace depends on its depth or is cut.
With just as many levels a full cycle is cut where a deeper walk finds its first method open. -/
theorem traces_saturate (changes : List Change) :
    let model := CodeModel.grown changes
    (∀ options options' : WalkOptions, options.Saturate model → options'.Saturate model →
      options.maxEntries = options'.maxEntries →
        (∀ className methodName,
          traceEntry model className methodName options =
              traceEntry model className methodName options' ∧
            depthNote ∉ (traceEntry model className methodName options).notes) ∧
          traceAllEntries model options = traceAllEntries model options' ∧
            depthNote ∉ (traceAllEntries model options).notes) ∧
      ∀ entry last chain, FullCycle model entry last chain → ∀ options : WalkOptions,
        (min options.maxDepth 64 = (methodKeys model).length →
          .note entry.owner depthNote ∈
            (traceEntry model entry.owner entry.name options).steps.toList) ∧
          (options.Saturate model →
            .note entry.owner (repeatNote entry.name) ∈
              (traceEntry model entry.owner entry.name options).steps.toList) := by
  intro model
  have owned : CodeModel.Owned model.methods := CodeModel.owned_grown changes
  constructor
  · intro options options' saturate saturate' entries
    constructor
    · exact traceEntry_of_saturate saturate saturate'
    · exact traceAllEntries_of_saturate saturate saturate' entries
  · intro entry last chain cycle options
    have resolved := cycle.closes.resolved owned
    constructor
    · intro depth
      apply mem_traceEntry_of_mem_expansion resolved
      rw [depth]
      exact cycle.cut owned
    · intro saturate
      apply mem_traceEntry_of_mem_expansion resolved
      exact cycle.repeats owned saturate

theorem stocking_saturates :
    (WalkOptions.Saturate { maxDepth := 3 } (CodeModel.grown stocking) ∧
      WalkOptions.Saturate {} (CodeModel.grown stocking) ∧
      FullCycle (CodeModel.grown stocking) reserving noting [reserving, noting]) ∧
    traceEntry (CodeModel.grown stocking) "Stock" "reserve" { maxDepth := 3 } =
      traceEntry (CodeModel.grown stocking) "Stock" "reserve" {} ∧
    .note "Stock" depthNote ∈
      (traceEntry (CodeModel.grown stocking) "Stock" "reserve" { maxDepth := 2 }).steps.toList ∧
    .note "Stock" (repeatNote "reserve") ∈
      (traceEntry (CodeModel.grown stocking) "Stock" "reserve" { maxDepth := 3 }).steps.toList := by
  have three : WalkOptions.Saturate { maxDepth := 3 } (CodeModel.grown stocking) := by decide
  have eight : WalkOptions.Saturate {} (CodeModel.grown stocking) := by decide
  have notes : Follows (CodeModel.grown stocking) reserving noting :=
    ⟨⟨"Audit", "note", .onInstance, 6⟩, shownCall_iff.mpr (by decide), by decide, by decide⟩
  have reserves : Follows (CodeModel.grown stocking) noting reserving :=
    ⟨⟨"Stock", "reserve", .onInstance, 12⟩, shownCall_iff.mpr (by decide), by decide, by decide⟩
  have linked := List.isChain_cons_cons.mpr ⟨notes, List.isChain_singleton noting⟩
  have cycle : FullCycle (CodeModel.grown stocking) reserving noting [reserving, noting] :=
    ⟨⟨linked, rfl, by decide⟩, rfl, reserves, by decide⟩
  obtain ⟨same, cycles⟩ := traces_saturate stocking
  have named := (same { maxDepth := 3 } {} three eight rfl).1 "Stock" "reserve"
  refine ⟨⟨three, eight, cycle⟩, named.1, ?_, ?_⟩
  · exact (cycles reserving noting _ cycle { maxDepth := 2 }).1 (by decide)
  · exact (cycles reserving noting _ cycle { maxDepth := 3 }).2 three

end JavaDiagram
