import Mathlib.Data.List.TakeWhile
import JavaDiagram.Diagram.SequenceDiagram
import JavaDiagram.Proofs.LineFeeds
import JavaDiagram.Text.Blank

/-!
# Reading sequence diagrams

The text of a sequence diagram is read back line by line. A name ends where a character comes that
no name has, so the arrow behind it is told from the name and from the target; of two tokens that
start alike the longer one is tried first. The list of participants ends with the first line that
names none. A diagram with plain names and labels of one line is read back from its text, whatever
its labels look like, so the text determines the diagram.
-/

namespace JavaDiagram

/-! ### Plain diagrams -/

/-- A character of plain names: not blank, and none that an arrow or the end of a name has. -/
def isNameChar (c : Char) : Bool :=
  !Text.isBlank c && c != '-' && c != '>' && c != '+' && c != ':'

theorem isNameChar_lineFeed : isNameChar '\n' = false := by decide

theorem isNameChar_blank : isNameChar ' ' = false := by decide

theorem isNameChar_dash : isNameChar '-' = false := by decide

theorem isNameChar_colon : isNameChar ':' = false := by decide

/-- Whether a name has some characters, and plain ones only. -/
def IsPlainName (name : String) : Prop :=
  name ≠ "" ∧ ∀ c ∈ name.toList, isNameChar c = true

instance (name : String) : Decidable (IsPlainName name) :=
  decidable_of_iff (name ≠ "" ∧ name.toList.all isNameChar = true)
    (and_congr_right fun _ => List.all_eq_true)

/-- Whether the names of a step are plain and its label or text is one line. -/
def Step.IsPlain : Step → Prop
  | .message source target _ label =>
    IsPlainName source ∧ IsPlainName target ∧ '\n' ∉ label.toList
  | .note subject text => IsPlainName subject ∧ '\n' ∉ text.toList
  | .break => True

instance : (step : Step) → Decidable step.IsPlain
  | .message .. => inferInstanceAs (Decidable (_ ∧ _ ∧ _))
  | .note .. => inferInstanceAs (Decidable (_ ∧ _))
  | .break => inferInstanceAs (Decidable True)

/-- Whether all names and texts of a diagram are plain. -/
structure SequenceDiagram.IsPlain (diagram : SequenceDiagram) : Prop where
  participants : ∀ name ∈ diagram.participants, IsPlainName name
  steps : ∀ step ∈ diagram.steps, step.IsPlain

instance (diagram : SequenceDiagram) : Decidable diagram.IsPlain :=
  decidable_of_iff ((∀ name ∈ diagram.participants.toList, IsPlainName name) ∧
      ∀ step ∈ diagram.steps.toList, step.IsPlain)
    ⟨fun ⟨participants, steps⟩ =>
        ⟨fun name member => participants name (Array.mem_toList_iff.mpr member),
          fun step member => steps step (Array.mem_toList_iff.mpr member)⟩,
      fun plain => ⟨fun name member => plain.participants name (Array.mem_toList_iff.mp member),
        fun step member => plain.steps step (Array.mem_toList_iff.mp member)⟩⟩

/-! ### Reading -/

/-- The name at the start of a text, and what follows it. -/
def readName (cs : List Char) : String × List Char :=
  (String.ofList (cs.takeWhile isNameChar), cs.dropWhile isNameChar)

/-- The arrow at the start of a text, and what follows it. -/
def readArrow : List Char → Option (Arrow × List Char)
  | '-' :: '>' :: '>' :: '+' :: rest => some (.activate, rest)
  | '-' :: '>' :: '>' :: rest => some (.call, rest)
  | '-' :: '-' :: '>' :: '>' :: '-' :: rest => some (.return, rest)
  | '-' :: '-' :: '>' :: rest => some (.reply, rest)
  | _ => none

/-- The label behind a name, up to the end of the line. -/
def readLabel : List Char → Option String
  | ':' :: ' ' :: label => some (String.ofList label)
  | _ => none

/-- How the lines of notes and of participants begin. -/
def noteStart : List Char := "    Note over ".toList

def participantStart : List Char := "    participant ".toList

/-- The step of a line. -/
def Step.ofLine? (line : List Char) : Option Step :=
  if line = [] then some .break
  else if noteStart.isPrefixOf line then do
    let (subject, rest) := readName (line.drop noteStart.length)
    let text ← readLabel rest
    return .note subject text
  else do
    let (source, rest) := readName (line.drop 4)
    let (arrow, rest) ← readArrow rest
    let (target, rest) := readName rest
    let label ← readLabel rest
    return .message source target arrow label

/-- The diagram of a text. -/
def SequenceDiagram.ofText? (text : String) : Option SequenceDiagram :=
  match Text.lines text.toList with
  | [] => none
  | first :: rest =>
    if first = header.toList then do
      let listed := rest.takeWhile participantStart.isPrefixOf
      let names := listed.map fun line => String.ofList (line.drop participantStart.length)
      -- The list of participants is followed by one empty line, if there are any.
      let body := rest.drop (listed.length + if listed.isEmpty then 0 else 1)
      let steps ← body.mapM Step.ofLine?
      return ⟨names.toArray, steps.toArray⟩
    else none

/-! ### Names and arrows -/

theorem takeWhile_append_of_head? {α : Type} {test : α → Bool} {front back : List α}
    (inside : ∀ item ∈ front, test item = true) (outside : ∀ item ∈ back.head?, test item = false) :
    (front ++ back).takeWhile test = front ∧ (front ++ back).dropWhile test = back := by
  rw [List.takeWhile_append_of_pos inside, List.dropWhile_append_of_pos inside]
  cases back with
  | nil => simp
  | cons item rest => simp [outside item rfl]

theorem readName_append {name : String} (plain : IsPlainName name) {c : Char}
    (stop : isNameChar c = false) (rest : List Char) :
    readName (name.toList ++ c :: rest) = (name, c :: rest) := by
  have ended : ∀ item ∈ (c :: rest).head?, isNameChar item = false := by simp [stop]
  obtain ⟨front, back⟩ := takeWhile_append_of_head? plain.2 ended
  rw [readName, front, back, String.ofList_toList]

/-- A plain name starts with a plain character. -/
theorem IsPlainName.exists_cons {name : String} (plain : IsPlainName name) :
    ∃ c rest, name.toList = c :: rest ∧ isNameChar c = true := by
  cases characters : name.toList with
  | nil => exact absurd (String.toList_eq_nil_iff.mp characters) plain.1
  | cons c rest => exact ⟨c, rest, rfl, plain.2 c (by simp [characters])⟩

theorem readArrow_append (arrow : Arrow) {target : String} (plain : IsPlainName target)
    (rest : List Char) :
    readArrow (arrow.token.toList ++ (target.toList ++ rest)) =
      some (arrow, target.toList ++ rest) := by
  obtain ⟨c, more, starts, allowed⟩ := plain.exists_cons
  -- No token goes on with a character that a name may start with.
  have apart : c ≠ '-' ∧ c ≠ '>' ∧ c ≠ '+' := by
    refine ⟨?_, ?_, ?_⟩ <;> rintro rfl <;> simp [isNameChar] at allowed
  obtain ⟨not_dash, not_angle, not_plus⟩ := apart
  rw [starts]
  -- So a call is not taken for an activation, nor a reply for a return.
  cases arrow with
  | activate => rfl
  | call => simp [Arrow.token, readArrow, not_plus]
  | reply => simp [Arrow.token, readArrow, not_angle]
  | «return» => rfl

/-! ### Lines -/

theorem IsPlainName.lineFeed_not_mem {name : String} (plain : IsPlainName name) :
    '\n' ∉ name.toList := by
  intro member
  have allowed := plain.2 '\n' member
  rw [isNameChar_lineFeed] at allowed
  cases allowed

/-- A word with a blank behind it is not the start of a name with an arrow behind it. -/
theorem not_word_prefix {word source : String} (plain_word : IsPlainName word)
    (plain : IsPlainName source) (rest more : List Char) :
    ¬ word.toList ++ ' ' :: rest <+: source.toList ++ '-' :: more := by
  rintro ⟨tail, same⟩
  have left := readName_append plain_word isNameChar_blank (rest ++ tail)
  have right := readName_append plain isNameChar_dash more
  rw [← same, List.append_assoc, List.cons_append, left] at right
  -- What follows the name would be a blank and a dash at once.
  have follows : ' ' :: (rest ++ tail) = '-' :: more := congrArg Prod.snd right
  have clash : ' ' = '-' := (List.cons.inj follows).1
  exact absurd clash (by decide)

theorem toList_line_note (subject text : String) :
    (Step.note subject text).line.toList =
      noteStart ++ (subject.toList ++ ':' :: ' ' :: text.toList) := by
  show ("    Note over " ++ subject ++ ": " ++ text).toList = "    Note over ".toList ++ _
  simp

theorem toList_line_message (source target label : String) (arrow : Arrow) :
    (Step.message source target arrow label).line.toList =
      "    ".toList ++ (source.toList ++ (arrow.token.toList ++
        (target.toList ++ ':' :: ' ' :: label.toList))) := by
  show ("    " ++ source ++ arrow.token ++ target ++ ": " ++ label).toList = _
  simp

theorem Arrow.exists_token_eq (arrow : Arrow) : ∃ rest, arrow.token.toList = '-' :: rest := by
  cases arrow <;> exact ⟨_, rfl⟩

/-- The line of a message does not begin with a word and a blank. -/
theorem not_isPrefixOf_line {word source : String} (plain_word : IsPlainName word)
    (plain : IsPlainName source) (rest : List Char) (target label : String) (arrow : Arrow) :
    ("    ".toList ++ (word.toList ++ ' ' :: rest)).isPrefixOf
      (Step.message source target arrow label).line.toList = false := by
  obtain ⟨token, starts⟩ := arrow.exists_token_eq
  rw [Bool.eq_false_iff, Ne, List.isPrefixOf_iff_prefix, toList_line_message,
    List.prefix_append_right_inj, starts]
  exact not_word_prefix plain_word plain _ _

theorem ofLine?_note {subject : String} (plain : IsPlainName subject) (text : String) :
    Step.ofLine? (Step.note subject text).line.toList = some (.note subject text) := by
  have name := readName_append plain isNameChar_colon (' ' :: text.toList)
  have starts : noteStart.isPrefixOf (noteStart ++
      (subject.toList ++ ':' :: ' ' :: text.toList)) = true :=
    List.isPrefixOf_iff_prefix.mpr (List.prefix_append _ _)
  have some_line : noteStart ++ (subject.toList ++ ':' :: ' ' :: text.toList) ≠ [] :=
    List.cons_ne_nil _ _
  rw [toList_line_note, Step.ofLine?, if_neg some_line, if_pos starts, List.drop_left, name]
  simp [readLabel]

theorem ofLine?_message {source target : String} (plain : IsPlainName source)
    (plain_target : IsPlainName target) (arrow : Arrow) (label : String) :
    Step.ofLine? (Step.message source target arrow label).line.toList =
      some (.message source target arrow label) := by
  obtain ⟨token, starts⟩ := arrow.exists_token_eq
  have word : IsPlainName "Note" := by decide
  have no_note : noteStart.isPrefixOf
      (Step.message source target arrow label).line.toList = false :=
    not_isPrefixOf_line word plain "over ".toList target label arrow
  -- The source ends at the dash of the arrow, and the target ends at the colon.
  have source_read := readName_append plain isNameChar_dash
    (token ++ (target.toList ++ ':' :: ' ' :: label.toList))
  have target_read := readName_append plain_target isNameChar_colon (' ' :: label.toList)
  have arrow_read := readArrow_append arrow plain_target (':' :: ' ' :: label.toList)
  rw [← List.cons_append, ← starts] at source_read
  have indent : (Step.message source target arrow label).line.toList.drop 4 =
      source.toList ++ (arrow.token.toList ++ (target.toList ++ ':' :: ' ' :: label.toList)) := by
    rw [toList_line_message]
    rfl
  have some_line : (Step.message source target arrow label).line.toList ≠ [] := by
    rw [toList_line_message]
    exact List.cons_ne_nil _ _
  rw [Step.ofLine?, if_neg some_line, no_note, indent, source_read]
  simp [arrow_read, target_read, readLabel]

/-- The line of a plain step is read back. -/
theorem ofLine?_line {step : Step} (plain : step.IsPlain) :
    Step.ofLine? step.line.toList = some step := by
  cases step with
  | «break» => rfl
  | note subject text => exact ofLine?_note plain.1 text
  | message source target arrow label => exact ofLine?_message plain.1 plain.2.1 arrow label

/-- No step is taken for a participant. -/
theorem participantStart_isPrefixOf_line {step : Step} (plain : step.IsPlain) :
    participantStart.isPrefixOf step.line.toList = false := by
  cases step with
  | «break» => rfl
  | note subject text =>
    rw [toList_line_note]
    rfl
  | message source target arrow label =>
    have word : IsPlainName "participant" := by decide
    exact not_isPrefixOf_line word plain.1 [] target label arrow

theorem lineFeed_not_mem_line {step : Step} (plain : step.IsPlain) :
    '\n' ∉ step.line.toList := by
  cases step with
  | «break» => exact List.not_mem_nil
  | note subject text =>
    have start : '\n' ∉ noteStart := by decide
    rw [toList_line_note]
    simp [start, plain.1.lineFeed_not_mem, plain.2]
  | message source target arrow label =>
    obtain ⟨plain_source, plain_target, single⟩ := plain
    have token : '\n' ∉ arrow.token.toList := by cases arrow <;> decide
    rw [toList_line_message]
    simp [token, plain_source.lineFeed_not_mem, plain_target.lineFeed_not_mem, single]

/-! ### Diagrams -/

def participantLines (names : List String) : List (List Char) :=
  names.map fun name => participantStart ++ name.toList

/-- The empty line that ends the list of participants, if there are any. -/
def participantsEnd (names : List String) : List (List Char) :=
  if names.isEmpty then [] else [[]]

def stepLines (steps : List Step) : List (List Char) :=
  steps.map fun step => step.line.toList

theorem eq_nil_of_mem_participantsEnd {names : List String} {line : List Char}
    (member : line ∈ participantsEnd names) : line = [] := by
  unfold participantsEnd at member
  split at member
  · cases member
  · exact List.mem_singleton.mp member

theorem lines_render {diagram : SequenceDiagram} (plain : diagram.IsPlain) :
    Text.lines diagram.render.toList =
      SequenceDiagram.header.toList :: (participantLines diagram.participants.toList ++
        (participantsEnd diagram.participants.toList ++ stepLines diagram.steps.toList)) := by
  have written : diagram.lines.map String.toList =
      SequenceDiagram.header.toList :: (participantLines diagram.participants.toList ++
        (participantsEnd diagram.participants.toList ++ stepLines diagram.steps.toList)) := by
    have participants (name : String) : ("    participant " ++ name).toList =
        participantStart ++ name.toList := String.toList_append
    cases names : diagram.participants.toList <;>
      simp [SequenceDiagram.lines, participantLines, participantsEnd, stepLines, names,
        participants, Function.comp_def]
  rw [SequenceDiagram.render, Text.lines_unlines, written]
  -- No line holds a line feed: neither a plain name nor the line of a plain step has one.
  intro line member
  have listed := List.mem_map_of_mem (f := String.toList) member
  rw [written, List.mem_cons, List.mem_append, List.mem_append] at listed
  rcases listed with header | named | gap | drawn
  · rw [header]
    decide
  · obtain ⟨name, member, same⟩ := List.mem_map.mp named
    have start : '\n' ∉ participantStart := by decide
    have rest := (plain.participants name (Array.mem_toList_iff.mp member)).lineFeed_not_mem
    rw [← same, List.mem_append, not_or]
    exact ⟨start, rest⟩
  · rw [eq_nil_of_mem_participantsEnd gap]
    exact List.not_mem_nil
  · obtain ⟨step, member, same⟩ := List.mem_map.mp drawn
    rw [← same]
    exact lineFeed_not_mem_line (plain.steps step (Array.mem_toList_iff.mp member))

/-- The participants end where the first line comes that names none. -/
theorem takeWhile_participantLines {diagram : SequenceDiagram} (plain : diagram.IsPlain) :
    (participantLines diagram.participants.toList ++
      (participantsEnd diagram.participants.toList ++ stepLines diagram.steps.toList)).takeWhile
        participantStart.isPrefixOf = participantLines diagram.participants.toList := by
  have inside : ∀ line ∈ participantLines diagram.participants.toList,
      participantStart.isPrefixOf line = true := by
    intro line member
    obtain ⟨name, _, rfl⟩ := List.mem_map.mp member
    exact List.isPrefixOf_iff_prefix.mpr (List.prefix_append _ _)
  -- The line behind those of the participants is empty or that of a step.
  have outside : ∀ line ∈ (participantsEnd diagram.participants.toList ++
      stepLines diagram.steps.toList).head?, participantStart.isPrefixOf line = false := by
    intro line first
    rcases List.mem_append.mp (List.mem_of_mem_head? first) with gap | member
    · rw [eq_nil_of_mem_participantsEnd gap]
      rfl
    · obtain ⟨step, listed, rfl⟩ := List.mem_map.mp member
      exact participantStart_isPrefixOf_line (plain.steps step (Array.mem_toList_iff.mp listed))
  exact (takeWhile_append_of_head? inside outside).1

theorem map_participantLines (names : List String) :
    (participantLines names).map
      (fun line => String.ofList (line.drop participantStart.length)) = names := by
  simp [participantLines, Function.comp_def]

theorem drop_participantsEnd (names : List String) (rest : List (List Char)) :
    (participantsEnd names ++ rest).drop (if (participantLines names).isEmpty then 0 else 1) =
      rest := by
  cases names <;> simp [participantLines, participantsEnd]

theorem mapM_ofLine?_stepLines {steps : List Step} (plain : ∀ step ∈ steps, step.IsPlain) :
    (stepLines steps).mapM Step.ofLine? = some steps := by
  induction steps with
  | nil => rfl
  | cons step rest ih =>
    have first := ofLine?_line (plain step (by simp))
    have later := ih fun other member => plain other (by simp [member])
    rw [stepLines] at later
    simp [stepLines, first, later]

/-- A plain diagram is read back from its text. -/
theorem ofText?_render {diagram : SequenceDiagram} (plain : diagram.IsPlain) :
    SequenceDiagram.ofText? diagram.render = some diagram := by
  have plain_steps : ∀ step ∈ diagram.steps.toList, step.IsPlain :=
    fun step member => plain.steps step (Array.mem_toList_iff.mp member)
  unfold SequenceDiagram.ofText?
  rw [lines_render plain]
  dsimp only
  rw [if_pos rfl, takeWhile_participantLines plain, map_participantLines,
    List.drop_length_add_append, drop_participantsEnd,
    mapM_ofLine?_stepLines plain_steps]
  rfl

/-- Plain diagrams have the same text only if they have the same participants and the same steps,
both in the same order. -/
theorem render_inj {diagram other : SequenceDiagram} (plain : diagram.IsPlain)
    (plain_other : other.IsPlain) :
    diagram.render = other.render ↔
      diagram.participants = other.participants ∧ diagram.steps = other.steps := by
  constructor
  · intro same
    have read := ofText?_render plain
    rw [same, ofText?_render plain_other] at read
    obtain rfl := Option.some.inj read
    exact ⟨rfl, rfl⟩
  · rintro ⟨participants, steps⟩
    rw [SequenceDiagram.render, SequenceDiagram.lines, participants, steps]
    rfl

/-- A call whose label looks like another call, and a note that looks like two. -/
def echo (arrow : Arrow) : SequenceDiagram where
  participants := #["Client", "Echo"]
  steps := #[.message "Client" "Echo" arrow "+Client->>Echo: call()",
    .note "Echo" "Note over Client: none", .break, .message "Echo" "Client" .return ": -->>-"]

theorem render_echo_inj :
    ((echo .activate).IsPlain ∧ (echo .call).IsPlain) ∧
      ((echo .activate).render = (echo .call).render ↔
        (echo .activate).participants = (echo .call).participants ∧
          (echo .activate).steps = (echo .call).steps) ∧
      (echo .activate).steps ≠ (echo .call).steps := by
  have activates : (echo .activate).IsPlain := by decide
  have calls : (echo .call).IsPlain := by decide
  exact ⟨⟨activates, calls⟩, render_inj activates calls, by decide⟩

/-- A name with a plus sign can pass for an activation. -/
example :
    ({ steps := #[.message "Echo" "+Bell" .call "ring()"] } : SequenceDiagram).render =
      ({ steps := #[.message "Echo" "Bell" .activate "ring()"] } : SequenceDiagram).render := by
  decide

end JavaDiagram
