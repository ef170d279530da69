import JavaDiagram.Model.Entity
import JavaDiagram.Text.Search

/-!
# Flow patterns

A body shows a pattern if its text holds certain words. The tests look at the text alone, so words
in comments and strings count.
-/

namespace JavaDiagram.FlowPattern

/-- All patterns, in the order in which they are reported. -/
def all : List FlowPattern :=
  [threadCreation, threadJoin, forLoop, conditional, arrayCreation, synchronized, systemOutput,
    threadSleep]

def name : FlowPattern → String
  | threadCreation => "THREAD_CREATION"
  | threadJoin => "THREAD_JOIN"
  | forLoop => "FOR_LOOP"
  | conditional => "CONDITIONAL"
  | arrayCreation => "ARRAY_CREATION"
  | synchronized => "SYNCHRONIZED"
  | systemOutput => "SYSTEM_OUTPUT"
  | threadSleep => "THREAD_SLEEP"

def description : FlowPattern → String
  | threadCreation => "Creates and starts threads"
  | threadJoin => "Waits for threads to complete"
  | forLoop => "Contains for loop"
  | conditional => "Contains conditional logic"
  | arrayCreation => "Creates arrays"
  | synchronized => "Synchronized method"
  | systemOutput => "Prints to console"
  | threadSleep => "Thread sleeps"

/-- Whether a body, or the modifier of its method, shows a pattern. -/
def occurs (body : String) (isSynchronized : Bool) : FlowPattern → Bool
  -- The two words may stand anywhere, in either order.
  | threadCreation => Text.contains body "new Thread" && Text.contains body ".start()"
  | threadJoin => Text.contains body ".join()"
  | forLoop => Text.contains body "for (" || Text.contains body "for("
  | conditional => Text.contains body "Math.random()" || Text.contains body "if ("
  | arrayCreation => Text.contains body "new " && Text.contains body "[]"
  | synchronized => isSynchronized || Text.contains body "synchronized"
  | systemOutput => Text.contains body "println"
  | threadSleep => Text.contains body "Thread.sleep"

/-- The patterns of a body, in their fixed order. -/
def detect (body : String) (isSynchronized : Bool) : List FlowPattern :=
  all.filter (occurs body isSynchronized)

end JavaDiagram.FlowPattern
