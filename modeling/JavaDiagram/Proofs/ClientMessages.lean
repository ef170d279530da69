import JavaDiagram.Proofs.CallChains
import JavaDiagram.Proofs.Edges

/-!
# Messages of the client

The client starts and ends the sequence of an entry. Its name is not reserved: a class of the same
name shares its place among the participants. A party other than the entry's class comes into an
expansion only as the target of a drawn call, so the client has a part in it only if such a class is
declared and called.
-/

namespace JavaDiagram

/-- The two ends of a message. -/
def Step.endpoints : Step → List String
  | .message source target _ _ => [source, target]
  | _ => []

theorem endpoints_message (model : CodeModel) (caller : String) (call : CallRecord) :
    (call.message model caller).endpoints = [caller, call.target] := by
  unfold CallRecord.message
  split <;> rfl

/-- A party that has a part in the steps of a call is the caller, or is called in them. -/
theorem exists_callee?_callSteps {model : CodeModel}
    {expandCallee : MethodRecord → String → List Step} {caller party : String}
    (inner : ∀ method target, ∀ step ∈ expandCallee method target, party ∈ step.endpoints →
      party ≠ target → ∃ drawn ∈ expandCallee method target, drawn.callee? = some party)
    {call : CallRecord} {step : Step} (member : step ∈ callSteps model expandCallee caller call)
    (takes_part : party ∈ step.endpoints) (other : party ≠ caller) :
    ∃ drawn ∈ callSteps model expandCallee caller call, drawn.callee? = some party := by
  obtain ⟨shown, cases_of_step⟩ := callSteps_cases member
  have steps : callSteps model expandCallee caller call =
      call.message model caller :: call.answer model expandCallee caller := by
    rw [callSteps, if_pos shown]
  by_cases target : party = call.target
  · -- The target is called by the first step of the call.
    refine ⟨call.message model caller, by rw [steps]; exact List.mem_cons_self .., ?_⟩
    rw [callee?_message, target]
  · rcases cases_of_step with rfl | ⟨label, rfl⟩ | ⟨callee, calls, found, deeper⟩
    · -- A message and its reply have no part but the caller and the target.
      rw [endpoints_message] at takes_part
      simp [other, target] at takes_part
    · simp [Step.endpoints, other, target] at takes_part
    · obtain ⟨drawn, listed, called⟩ := inner callee call.target step deeper takes_part target
      refine ⟨drawn, ?_, called⟩
      rw [steps, CallRecord.answer, if_neg calls, found]
      exact List.mem_cons_of_mem _ (List.mem_append_left _ listed)

/-- A party that has a part in an expansion is the caller, or is called in it. -/
theorem exists_callee?_expansion {model : CodeModel} (remaining : Nat)
    (path : List (String × String)) (method : MethodRecord) (caller : String) {party : String}
    {step : Step} (member : step ∈ expansion model remaining path method caller)
    (takes_part : party ∈ step.endpoints) (other : party ≠ caller) :
    ∃ drawn ∈ expansion model remaining path method caller, drawn.callee? = some party := by
  induction remaining generalizing path method caller step with
  | zero =>
    obtain rfl := List.mem_singleton.mp member
    cases takes_part
  | succ remaining ih =>
    by_cases repeated : method.key ∈ path
    · rw [expansion_of_mem caller repeated] at member
      obtain rfl := List.mem_singleton.mp member
      cases takes_part
    · rw [expansion_of_not_mem caller repeated] at member ⊢
      obtain ⟨call, listed, member⟩ := List.mem_flatMap.mp member
      obtain ⟨drawn, inside, called⟩ := exists_callee?_callSteps
        (fun callee target step deeper takes_part other =>
          ih (method.key :: path) callee target deeper takes_part other)
        member takes_part other
      exact ⟨drawn, List.mem_flatMap.mpr ⟨call, listed, inside⟩, called⟩

/-- The client has a part in the expansion of another class's method exactly if a chain of calls
leads to a call of a class of its name. -/
theorem client_mem_endpoints_iff {model : CodeModel} (owned : CodeModel.Owned model.methods)
    (bound : Nat) {entry : MethodRecord} (resolved : Resolved model entry)
    (apart : entry.owner ≠ client) :
    (∃ step ∈ expansion model bound [] entry entry.owner, client ∈ step.endpoints) ↔
      ∃ last call, Reaches model bound entry last ∧ ShownCall model last call ∧
        call.target = client := by
  constructor
  · -- Who takes part without being the entry's class is called, and calls are drawn along chains.
    rintro ⟨step, member, takes_part⟩
    obtain ⟨drawn, listed, called⟩ := exists_callee?_expansion bound [] entry entry.owner member
      takes_part apart.symm
    obtain ⟨last, call, reaches, shown, rfl⟩ :=
      (mem_expansion_iff owned bound resolved drawn).mp ⟨listed, client, called⟩
    rw [callee?_message] at called
    exact ⟨last, call, reaches, shown, Option.some.inj called⟩
  · rintro ⟨last, call, reaches, shown, target⟩
    obtain ⟨member, _⟩ := (mem_expansion_iff owned bound resolved _).mpr
      ⟨last, call, reaches, shown, rfl⟩
    refine ⟨_, member, ?_⟩
    rw [endpoints_message, target]
    simp

/-- How the client takes part in the sequence of an entry. Between the client's call and the reply
to it, it has a part in a message exactly if a chain of calls leads from the entry to a call of a
class, interface or enum of the client's name, and in none if no declaration has that name. -/
def ClientTakesPart (decls : List Java.Declaration) (model : CodeModel) (bound : Nat)
    (className : String) (entry : MethodRecord) (steps : List Step) : Prop :=
  ∃ inner : List Step,
    steps = .message client className .activate (entry.name ++ "()") ::
      (inner ++ [.message className client .return entry.replyLabel]) ∧
    ((∃ step ∈ inner, client ∈ step.endpoints) ↔
      ∃ last call, Reaches model bound entry last ∧ ShownCall model last call ∧
        call.target = client) ∧
    (client ∉ decls.map (·.name) → ∀ step ∈ inner, client ∉ step.endpoints)

/-- In the sequence of another class's method the client has a part in the first and the last
message only, unless a declaration has its name. -/
theorem traceEntry_clientTakesPart (units : List Java.SyntaxUnit) (options : WalkOptions)
    {className methodName : String} {entry : MethodRecord}
    (found : (({} : CodeModel).ingestAll units).1.findMethod className methodName = some entry)
    (apart : className ≠ client) :
    let model := (({} : CodeModel).ingestAll units).1
    ClientTakesPart (committedDeclarations units) model (min options.maxDepth 64) className entry
      (traceEntry model className methodName options).steps.toList := by
  intro model
  have owned := CodeModel.owned_ingestAll units
  have closed := (closedForm_iff_ingestAll units _).mpr rfl
  have resolved := resolved_of_findMethod owned found
  obtain ⟨rfl, rfl⟩ := CodeModel.findMethod_eq owned found
  have parts := client_mem_endpoints_iff owned options.clamped.maxDepth resolved apart
  refine ⟨expansion _ options.clamped.maxDepth [] entry entry.owner, ?_, parts, ?_⟩
  · rw [traceEntry_eq_draw options found, SequenceDiagram.steps_draw]
    rfl
  · intro undeclared step member takes_part
    -- A shown call has a known target, and only declared names are known.
    obtain ⟨last, call, _, ⟨_, _, _, _, known⟩, target⟩ := parts.mp ⟨step, member, takes_part⟩
    rw [target, closed.isKnown_iff] at known
    exact undeclared known

/-- A desk that greets another class. -/
def greeting (greeted : String) : List Java.SyntaxUnit :=
  [⟨"a", [.ok (.ofClass
      { name := "Desk"
        methods := [{ name := "open", body := some ⟨"", [.call (some greeted) "greet" 2]⟩ }] }),
    .ok (.ofClass { name := greeted, methods := [{ name := "greet" }] })]⟩]

/-- The method record of the desk. -/
def opening (greeted : String) : MethodRecord where
  owner := "Desk"
  name := "open"
  returnType := "Desk"
  visibility := .package
  calls := [⟨greeted, "greet", .onInstance, 2⟩]

theorem clientTakesPart_greeting :
    "Desk" ≠ client ∧
      (let model := (({} : CodeModel).ingestAll (greeting "Client")).1
      model.findMethod "Desk" "open" = some (opening "Client") ∧
        ClientTakesPart (committedDeclarations (greeting "Client")) model 8 "Desk"
          (opening "Client") (traceEntry model "Desk" "open" {}).steps.toList) ∧
      (let model := (({} : CodeModel).ingestAll (greeting "Guest")).1
      model.findMethod "Desk" "open" = some (opening "Guest") ∧
        ClientTakesPart (committedDeclarations (greeting "Guest")) model 8 "Desk"
          (opening "Guest") (traceEntry model "Desk" "open" {}).steps.toList) := by
  have apart : "Desk" ≠ client := by decide
  refine ⟨apart, ⟨by decide, ?_⟩, ⟨by decide, ?_⟩⟩
  · exact traceEntry_clientTakesPart (greeting "Client") {} (by decide) apart
  · exact traceEntry_clientTakesPart (greeting "Guest") {} (by decide) apart

/-- A class by the name of the client is drawn as the client. -/
theorem client_not_only_at_ends :
    ¬ ∀ (units : List Java.SyntaxUnit) (className methodName : String) (options : WalkOptions),
      let model := (({} : CodeModel).ingestAll units).1
      className ≠ client → (model.findMethod className methodName).isSome = true →
        ∀ step ∈ (traceEntry model className methodName options).steps.toList.tail.dropLast,
          client ∉ step.endpoints := by
  intro claim
  have outside := claim (greeting "Client") "Desk" "open" {} (by decide) (by decide)
    (.message "Desk" "Client" .call "greet()") (by decide +kernel)
  exact outside (by decide)

end JavaDiagram
