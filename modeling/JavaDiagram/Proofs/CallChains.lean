import Mathlib.Data.List.Chain
import JavaDiagram.Proofs.Growth
import JavaDiagram.Proofs.WalkSteps

/-!
# Call chains

The walk follows only paths on which no method comes up twice. What it shows is all the same what
any chain of calls of the same length shows, with repetitions or without: a chain that comes back
to a method can be cut there, and the cut chain is no longer.
-/

namespace JavaDiagram

/-- A call of a method that is drawn: its target is another known class of the program. -/
def ShownCall (model : CodeModel) (method : MethodRecord) (call : CallRecord) : Prop :=
  call ∈ method.calls ∧ Library.isLibraryType call.target = false ∧ call.target ≠ selfTarget ∧
    call.target ≠ method.owner ∧ model.isKnown call.target = true

/-- Whether a method has a shown call, not a construction, that resolves to another method. -/
def Follows (model : CodeModel) (method callee : MethodRecord) : Prop :=
  ∃ call, ShownCall model method call ∧ call.kind ≠ .construction ∧
    model.findMethod call.target call.member = some callee

/-- Whether a chain of at most `bound` methods leads from one method to another. A method may come
up on it more than once. -/
def Reaches (model : CodeModel) (bound : Nat) (entry last : MethodRecord) : Prop :=
  ∃ chain : List MethodRecord, chain.IsChain (Follows model) ∧ chain.head? = some entry ∧
    chain.getLast? = some last ∧ chain.length ≤ bound

theorem shownCall_iff {model : CodeModel} {method : MethodRecord} {call : CallRecord} :
    ShownCall model method call ↔
      call ∈ method.calls ∧ call.isShown model method.owner = true := by
  simp only [ShownCall, CallRecord.isShown, Bool.and_eq_true, Bool.not_eq_true', bne_iff_ne,
    and_assoc]

theorem Reaches.self (model : CodeModel) (bound : Nat) (method : MethodRecord) :
    Reaches model (bound + 1) method method :=
  ⟨[method], List.isChain_singleton method, rfl, rfl, Nat.le_add_left 1 bound⟩

theorem Reaches.head {model : CodeModel} {bound : Nat} {method callee last : MethodRecord}
    (follows : Follows model method callee) (reaches : Reaches model bound callee last) :
    Reaches model (bound + 1) method last := by
  obtain ⟨chain, linked, first, final, short⟩ := reaches
  cases chain with
  | nil => cases first
  | cons head rest =>
    obtain rfl := Option.some.inj first
    refine ⟨method :: head :: rest, ?_, rfl, ?_, Nat.succ_le_succ short⟩
    · exact List.isChain_cons_cons.mpr ⟨follows, linked⟩
    · rw [List.getLast?_cons_cons, final]

/-! ### Cutting cycles -/

/-- Whether a method is the one that its owner and name look up. -/
def Resolved (model : CodeModel) (method : MethodRecord) : Prop :=
  model.findMethod method.owner method.name = some method

theorem resolved_of_findMethod {model : CodeModel} (owned : CodeModel.Owned model.methods)
    {owner name : String} {method : MethodRecord}
    (found : model.findMethod owner name = some method) : Resolved model method := by
  obtain ⟨rfl, rfl⟩ := CodeModel.findMethod_eq owned found
  exact found

theorem Follows.resolved {model : CodeModel} (owned : CodeModel.Owned model.methods)
    {method callee : MethodRecord} (follows : Follows model method callee) :
    Resolved model callee := by
  obtain ⟨_, _, _, found⟩ := follows
  exact resolved_of_findMethod owned found

theorem Resolved.eq_of_key {model : CodeModel} {method other : MethodRecord}
    (resolved : Resolved model method) (resolved' : Resolved model other)
    (same : method.key = other.key) : method = other := by
  obtain ⟨owner, name⟩ := Prod.mk.inj same
  rw [Resolved, ← owner, ← name, resolved] at resolved'
  exact Option.some.inj resolved'

theorem resolved_of_isChain {model : CodeModel} (owned : CodeModel.Owned model.methods)
    {method : MethodRecord} {rest : List MethodRecord}
    (linked : (method :: rest).IsChain (Follows model)) :
    ∀ callee ∈ rest, Resolved model callee := by
  induction rest generalizing method with
  | nil => simp
  | cons next rest ih =>
    obtain ⟨follows, linked'⟩ := List.isChain_cons_cons.mp linked
    intro callee member
    rcases List.mem_cons.mp member with rfl | member
    · exact follows.resolved owned
    · exact ih linked' callee member

/-- A chain to a method on which no key comes up twice. -/
structure SimpleChain (model : CodeModel) (last : MethodRecord) (chain : List MethodRecord) :
    Prop where
  linked : chain.IsChain (Follows model)
  final : chain.getLast? = some last
  distinct : (chain.map (·.key)).Nodup

/-- A simple chain can be entered at any of its methods. -/
theorem SimpleChain.suffix {model : CodeModel} {last method : MethodRecord}
    (front : List MethodRecord) {back : List MethodRecord}
    (simple : SimpleChain model last (front ++ method :: back)) :
    SimpleChain model last (method :: back) := by
  obtain ⟨linked, final, distinct⟩ := simple
  rw [List.getLast?_append_of_ne_nil _ (List.cons_ne_nil _ _)] at final
  rw [List.map_append] at distinct
  exact ⟨linked.right_of_append, final, (List.nodup_append.mp distinct).2.1⟩

theorem SimpleChain.cons {model : CodeModel} {last method callee : MethodRecord}
    {rest : List MethodRecord} (simple : SimpleChain model last (callee :: rest))
    (follows : Follows model method callee)
    (fresh : method.key ∉ (callee :: rest).map (·.key)) :
    SimpleChain model last (method :: callee :: rest) := by
  constructor
  · exact List.isChain_cons_cons.mpr ⟨follows, simple.linked⟩
  · rw [List.getLast?_cons_cons, simple.final]
  · rw [List.map_cons]
    exact List.nodup_cons.mpr ⟨fresh, simple.distinct⟩

/-- A chain can be cut to one on which no key comes up twice, with the same ends and no longer. -/
theorem exists_simple_chain {model : CodeModel} (owned : CodeModel.Owned model.methods)
    {method last : MethodRecord} {rest : List MethodRecord} (resolved : Resolved model method)
    (linked : (method :: rest).IsChain (Follows model))
    (final : (method :: rest).getLast? = some last) :
    ∃ shorter : List MethodRecord, SimpleChain model last (method :: shorter) ∧
      shorter.length ≤ rest.length := by
  induction rest generalizing method with
  | nil => exact ⟨[], ⟨linked, final, List.nodup_singleton _⟩, Nat.le_refl 0⟩
  | cons callee rest ih =>
    -- The chain behind the method is made simple first; only the method itself can come again.
    obtain ⟨follows, linked'⟩ := List.isChain_cons_cons.mp linked
    have resolved' := follows.resolved owned
    rw [List.getLast?_cons_cons] at final
    obtain ⟨shorter, simple, short⟩ := ih resolved' linked' final
    by_cases again : method.key ∈ (callee :: shorter).map (·.key)
    · -- The chain comes back to the method, so it can start where it does so.
      obtain ⟨other, member, same⟩ := List.mem_map.mp again
      have resolved_other : Resolved model other := by
        rcases List.mem_cons.mp member with rfl | member
        · exact resolved'
        · exact resolved_of_isChain owned simple.linked other member
      obtain rfl := resolved_other.eq_of_key resolved same
      obtain ⟨front, back, split⟩ := List.append_of_mem member
      have size : (callee :: shorter).length = (front ++ other :: back).length := by rw [split]
      rw [split] at simple
      refine ⟨back, .suffix front simple, ?_⟩
      simp only [List.length_append, List.length_cons] at size ⊢
      omega
    · exact ⟨callee :: shorter, simple.cons follows again, Nat.succ_le_succ short⟩

/-! ### What an expansion shows -/

theorem callee?_message (model : CodeModel) (caller : String) (call : CallRecord) :
    (call.message model caller).callee? = some call.target := by
  unfold CallRecord.message
  split <;> rfl

/-- Every call message of an expansion is a shown call of the last method of some chain. -/
theorem exists_chain_of_mem_expansion {model : CodeModel} (owned : CodeModel.Owned model.methods)
    (remaining : Nat) (path : List (String × String)) (method : MethodRecord) {step : Step}
    (member : step ∈ expansion model remaining path method method.owner) {target : String}
    (called : step.callee? = some target) :
    ∃ last call, Reaches model remaining method last ∧ ShownCall model last call ∧
      step = call.message model last.owner := by
  induction remaining generalizing path method with
  | zero =>
    obtain rfl := List.mem_singleton.mp member
    cases called
  | succ remaining ih =>
    rcases expansion_cases member with rfl | ⟨call, listed, member⟩
    · cases called
    · obtain ⟨drawn, member⟩ := callSteps_cases member
      have shown : ShownCall model method call := shownCall_iff.mpr ⟨listed, drawn⟩
      rcases member with rfl | ⟨label, rfl⟩ | ⟨callee, calls, found, member⟩
      · exact ⟨method, call, .self model remaining method, shown, rfl⟩
      · cases called
      · -- The callee is drawn under its own name, so its chains extend to chains of the method.
        rw [← (CodeModel.findMethod_eq owned found).1] at member
        obtain ⟨last, inner, reaches, shown', same⟩ := ih _ callee member
        exact ⟨last, inner, reaches.head ⟨call, shown, calls, found⟩, shown', same⟩

/-- An expansion that is not cut holds the message and the answer of each shown call. -/
theorem mem_expansion_of_shown {model : CodeModel} {remaining : Nat}
    {path : List (String × String)} {method : MethodRecord} (fresh : method.key ∉ path)
    {call : CallRecord} (shown : ShownCall model method call) {step : Step}
    (member : step ∈ call.message model method.owner ::
      call.answer model (expansion model remaining (method.key :: path)) method.owner) :
    step ∈ expansion model (remaining + 1) path method method.owner := by
  obtain ⟨listed, drawn⟩ := shownCall_iff.mp shown
  rw [expansion_of_not_mem method.owner fresh]
  apply List.mem_flatMap.mpr
  refine ⟨call, listed, ?_⟩
  rw [callSteps, if_pos drawn]
  exact member

/-- What a method draws inside another one that calls it, the caller draws as well. -/
theorem mem_expansion_of_follows {model : CodeModel} (owned : CodeModel.Owned model.methods)
    {remaining : Nat} {path : List (String × String)} {method callee : MethodRecord} {step : Step}
    (fresh : method.key ∉ path) (follows : Follows model method callee)
    (member : step ∈ expansion model remaining (method.key :: path) callee callee.owner) :
    step ∈ expansion model (remaining + 1) path method method.owner := by
  obtain ⟨call, shown, calls, found⟩ := follows
  rw [(CodeModel.findMethod_eq owned found).1] at member
  apply mem_expansion_of_shown fresh shown
  rw [CallRecord.answer, if_neg calls, found]
  exact List.mem_cons_of_mem _ (List.mem_append_left _ member)

/-- What the last method of a simple chain draws inside the others, the first one draws outside the
chain. -/
theorem mem_expansion_of_last {model : CodeModel} (owned : CodeModel.Owned model.methods)
    {rest : List MethodRecord} {last : MethodRecord} {step : Step} (remaining : Nat)
    (path : List (String × String)) (method : MethodRecord)
    (simple : SimpleChain model last (method :: rest))
    (outside : ∀ other ∈ method :: rest, other.key ∉ path)
    (member : step ∈ expansion model remaining
      (((method :: rest).dropLast.map (·.key)).reverse ++ path) last last.owner) :
    step ∈ expansion model (rest.length + remaining) path method method.owner := by
  induction rest generalizing path method with
  | nil =>
    obtain rfl : method = last := Option.some.inj simple.final
    simpa using member
  | cons callee rest ih =>
    have follows := (List.isChain_cons_cons.mp simple.linked).1
    -- The method joins the path, and the rest of the chain stays outside it.
    have outside' : ∀ other ∈ callee :: rest, other.key ∉ method.key :: path := by
      intro other listed
      rw [List.mem_cons, not_or]
      constructor
      · intro same
        exact (List.nodup_cons.mp simple.distinct).1 (List.mem_map.mpr ⟨other, listed, same⟩)
      · exact outside other (List.mem_cons_of_mem _ listed)
    have rest_simple : SimpleChain model last (callee :: rest) := .suffix [method] simple
    rw [List.dropLast_cons_cons, List.map_cons, List.reverse_cons, List.append_assoc,
      List.singleton_append] at member
    have inner := ih (method.key :: path) callee rest_simple outside' member
    rw [List.length_cons, Nat.add_right_comm]
    exact mem_expansion_of_follows owned (outside method (List.mem_cons_self ..)) follows inner

/-- The last method of a simple chain outside the path is not open when it is reached. -/
theorem SimpleChain.last_fresh {model : CodeModel} {last : MethodRecord}
    {chain : List MethodRecord} (simple : SimpleChain model last chain)
    {path : List (String × String)} (outside : ∀ other ∈ chain, other.key ∉ path) :
    last.key ∉ (chain.dropLast.map (·.key)).reverse ++ path := by
  have split : chain.dropLast ++ [last] = chain :=
    List.dropLast_append_getLast? last simple.final
  have distinct := simple.distinct
  rw [← split, List.map_append, List.nodup_append] at distinct
  rw [List.mem_append, List.mem_reverse, not_or]
  constructor
  · intro again
    exact distinct.2.2 _ again _ (List.mem_singleton_self _) rfl
  · exact outside last (List.mem_of_getLast? simple.final)

/-- The shown calls at the end of a simple chain outside the path are drawn. -/
theorem mem_expansion_of_simpleChain {model : CodeModel}
    (owned : CodeModel.Owned model.methods) {rest : List MethodRecord} {last : MethodRecord}
    {call : CallRecord} (shown : ShownCall model last call) (remaining : Nat)
    (path : List (String × String)) (method : MethodRecord)
    (simple : SimpleChain model last (method :: rest))
    (outside : ∀ other ∈ method :: rest, other.key ∉ path)
    (short : rest.length < remaining) :
    call.message model last.owner ∈ expansion model remaining path method method.owner := by
  obtain ⟨left, rfl⟩ := Nat.exists_eq_add_of_lt short
  rw [Nat.add_assoc]
  apply mem_expansion_of_last owned (left + 1) path method simple outside
  exact mem_expansion_of_shown (simple.last_fresh outside) shown (List.mem_cons_self ..)

/-- An expansion with nothing open shows the calls of all chains within its bound. -/
theorem mem_expansion_iff {model : CodeModel} (owned : CodeModel.Owned model.methods)
    (bound : Nat) {entry : MethodRecord} (resolved : Resolved model entry) (step : Step) :
    (step ∈ expansion model bound [] entry entry.owner ∧ ∃ target, step.callee? = some target) ↔
      ∃ last call, Reaches model bound entry last ∧ ShownCall model last call ∧
        step = call.message model last.owner := by
  constructor
  · rintro ⟨member, target, called⟩
    exact exists_chain_of_mem_expansion owned bound [] entry member called
  · rintro ⟨last, call, ⟨chain, linked, first, final, short⟩, shown, rfl⟩
    refine ⟨?_, call.target, callee?_message model last.owner call⟩
    cases chain with
    | nil => cases first
    | cons head rest =>
      obtain rfl := Option.some.inj first
      obtain ⟨rest', simple, shorter⟩ := exists_simple_chain owned resolved linked final
      exact mem_expansion_of_simpleChain owned shown bound [] head simple
        (fun _ _ => List.not_mem_nil) (Nat.lt_of_le_of_lt shorter short)

/-! ### Entries -/

/-- Whether a diagram shows exactly the calls at the ends of the chains of at most `bound` methods
that start at an entry. -/
structure ShowsChains (model : CodeModel) (bound : Nat) (className : String)
    (entry : MethodRecord) (diagram : SequenceDiagram) : Prop where
  participants : ∀ name, name ∈ diagram.participants ↔
    name = client ∨ name = className ∨
      ∃ last call, Reaches model bound entry last ∧ ShownCall model last call ∧
        call.target = name
  messages : ∀ caller target arrow label,
    (.message caller target arrow label ∈ diagram.steps.toList.tail ∧
        (arrow = .call ∨ arrow = .activate)) ↔
      ∃ last call, Reaches model bound entry last ∧ ShownCall model last call ∧
        .message caller target arrow label = call.message model last.owner

theorem exists_callee?_message_iff (caller target : String) (arrow : Arrow) (label : String) :
    (∃ name, (Step.message caller target arrow label).callee? = some name) ↔
      arrow = .call ∨ arrow = .activate := by
  cases arrow <;> simp [Step.callee?]

/-- After the client's own call, the call messages of an entry are those of its expansion. -/
theorem mem_tail_entrySteps {model : CodeModel} {options : WalkOptions}
    {path : List (String × String)} {className : String} {entry : MethodRecord} {step : Step}
    (called : ∃ name, step.callee? = some name) :
    step ∈ (entrySteps model options path className entry).tail ↔
      step ∈ expansion model options.clamped.maxDepth path entry className := by
  obtain ⟨name, called⟩ := called
  rw [entrySteps, List.tail_cons, List.mem_append, List.mem_singleton]
  constructor
  · rintro (member | rfl)
    · exact member
    · cases called
  · exact Or.inl

/-- The participants of an entry are the client, its class and the targets of its expansion. -/
theorem mem_participants_entrySteps {model : CodeModel} {options : WalkOptions}
    {path : List (String × String)} {className : String} {entry : MethodRecord} {name : String} :
    name ∈ (SequenceDiagram.draw { participants := #[client] }
        (entrySteps model options path className entry)).participants ↔
      name = client ∨ name = className ∨
        ∃ step ∈ expansion model options.clamped.maxDepth path entry className,
          step.callee? = some name := by
  rw [SequenceDiagram.mem_draw, entrySteps]
  simp [Step.callee?, eq_comm (a := name), or_and_right, exists_or]

/-- In a grown model the sequence of an entry shows what all chains of calls within its depth show:
keeping to paths without repetition hides neither a participant nor a call. -/
theorem traceEntry_showsChains (changes : List Change) (options : WalkOptions)
    {className methodName : String} {entry : MethodRecord}
    (found : (CodeModel.grown changes).findMethod className methodName = some entry) :
    ShowsChains (CodeModel.grown changes) (min options.maxDepth 64) className entry
      (traceEntry (CodeModel.grown changes) className methodName options) := by
  have owned := CodeModel.owned_grown changes
  have resolved := resolved_of_findMethod owned found
  obtain ⟨rfl, rfl⟩ := CodeModel.findMethod_eq owned found
  have shown := mem_expansion_iff owned options.clamped.maxDepth resolved
  rw [traceEntry_eq_draw options found]
  constructor
  · intro name
    rw [mem_participants_entrySteps]
    apply or_congr_right
    apply or_congr_right
    constructor
    · rintro ⟨step, member, called⟩
      obtain ⟨last, call, reaches, drawn, rfl⟩ := (shown step).mp ⟨member, name, called⟩
      rw [callee?_message] at called
      exact ⟨last, call, reaches, drawn, Option.some.inj called⟩
    · rintro ⟨last, call, reaches, drawn, rfl⟩
      obtain ⟨member, _⟩ := (shown _).mpr ⟨last, call, reaches, drawn, rfl⟩
      exact ⟨_, member, callee?_message _ last.owner call⟩
  · intro caller target arrow label
    rw [SequenceDiagram.steps_draw, ← exists_callee?_message_iff caller target arrow label]
    refine Iff.trans ?_ (shown _)
    apply and_congr_left
    intro called
    exact mem_tail_entrySteps called

/-- Reserving an item is noted, and noting it reserves another one. -/
def reserving : MethodRecord where
  owner := "Stock"
  name := "reserve"
  returnType := "Item"
  calls := [⟨"Item", "Item", .construction, 5⟩, ⟨"Audit", "note", .onInstance, 6⟩]

/-- Noting calls back, then releases what was reserved. -/
def noting : MethodRecord where
  owner := "Audit"
  name := "note"
  returnType := "void"
  calls := [⟨"Stock", "reserve", .onInstance, 12⟩, ⟨"Stock", "release", .onInstance, 13⟩]

/-- Three classes, two methods that call each other, and an overload of the first. -/
def stocking : List Change :=
  [.insertClass { name := "Stock" }, .insertClass { name := "Audit" },
    .insertClass { name := "Item" }, .addMethod reserving,
    .addMethod { reserving with calls := [] }, .addMethod noting]

theorem showsChains_reserve :
    (CodeModel.grown stocking).findMethod "Stock" "reserve" = some reserving ∧
      ShowsChains (CodeModel.grown stocking) 8 "Stock" reserving
        (traceEntry (CodeModel.grown stocking) "Stock" "reserve" {}) :=
  ⟨by decide, traceEntry_showsChains stocking {} (by decide)⟩

end JavaDiagram
