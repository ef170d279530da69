import JavaDiagram.Text.Lines

/-!
# Sequence diagrams

A sequence diagram has participants and steps. A step is a message between two participants, a note
over one, or a break between independent sequences.
-/

namespace JavaDiagram

/-- The four arrows between participants. -/
inductive Arrow where
  /-- A call that opens an activation. -/
  | activate
  | call
  | reply
  /-- A reply that closes an activation. -/
  | return
  deriving DecidableEq, Repr

def Arrow.token : Arrow → String
  | .activate => "->>+"
  | .call => "->>"
  | .reply => "-->"
  | .return => "-->>-"

/-- One step of a sequence. -/
inductive Step where
  | message (source target : String) (arrow : Arrow) (label : String)
  | note (subject text : String)
  /-- An empty line between independent sequences. -/
  | break
  deriving DecidableEq, Repr

def Step.line : Step → String
  | .message source target arrow label =>
    "    " ++ source ++ arrow.token ++ target ++ ": " ++ label
  | .note subject text => "    Note over " ++ subject ++ ": " ++ text
  | .break => ""

/-- Participants in order of first appearance, and the steps between them. -/
structure SequenceDiagram where
  participants : Array String := #[]
  steps : Array Step := #[]
  deriving DecidableEq, Repr

namespace SequenceDiagram

/-- The first line of every sequence diagram. -/
def header : String := "sequenceDiagram"

/-- Declares a participant, once. -/
def addParticipant (diagram : SequenceDiagram) (name : String) : SequenceDiagram :=
  if diagram.participants.contains name then diagram
  else { diagram with participants := diagram.participants.push name }

def addStep (diagram : SequenceDiagram) (step : Step) : SequenceDiagram :=
  { diagram with steps := diagram.steps.push step }

def notes (diagram : SequenceDiagram) : List String :=
  diagram.steps.toList.filterMap fun
    | .note _ text => some text
    | _ => none

/-- The lines of a diagram. An empty line ends the list of participants, if there are any. -/
def lines (diagram : SequenceDiagram) : List String :=
  let participants := diagram.participants.toList.map ("    participant " ++ ·)
  header :: (participants ++ (if participants.isEmpty then [] else [""]) ++
    diagram.steps.toList.map Step.line)

def render (diagram : SequenceDiagram) : String :=
  Text.unlines diagram.lines

end SequenceDiagram

end JavaDiagram
