import JavaDiagram.Diagram.SequenceDiagram
import JavaDiagram.Library
import JavaDiagram.Model.Building
import JavaDiagram.Model.CodeModel

/-!
# The call walk

A sequence diagram is drawn by walking from an entry method along recorded calls. The walk is
bounded twice: by the depth, and by the path of methods whose expansion is still open, none of
which is expanded again inside itself. A method may come up again on another branch.
-/

namespace JavaDiagram

/-- The participant that starts every sequence. -/
def client : String := "Client"

/-- How far a walk goes and how many entries are shown. -/
structure WalkOptions where
  maxDepth : Nat := 8
  maxEntries : Nat := 5
  deriving DecidableEq, Repr

namespace WalkOptions

/-- No walk goes deeper than this. -/
def depthCeiling : Nat := 64

/-- The options with the depth brought down to the ceiling. -/
def clamped (options : WalkOptions) : WalkOptions :=
  { options with maxDepth := min options.maxDepth depthCeiling }

end WalkOptions

def MethodRecord.replyLabel (method : MethodRecord) : String :=
  if method.returnsVoid then "return" else method.returnType

/-- A walk in progress: what it has drawn, and the keys of the methods it has open. -/
structure Walk where
  diagram : SequenceDiagram := {}
  path : List (String × String) := []
  deriving DecidableEq, Repr

namespace Walk

def join (walk : Walk) (name : String) : Walk :=
  { walk with diagram := walk.diagram.addParticipant name }

def send (walk : Walk) (source target : String) (arrow : Arrow) (label : String) : Walk :=
  { walk with diagram := walk.diagram.addStep (.message source target arrow label) }

def note (walk : Walk) (subject text : String) : Walk :=
  { walk with diagram := walk.diagram.addStep (.note subject text) }

def enter (walk : Walk) (key : String × String) : Walk :=
  { walk with path := key :: walk.path }

def leave (walk : Walk) (key : String × String) : Walk :=
  { walk with path := walk.path.erase key }

end Walk

/-- The note where the depth ends a walk. -/
def depthNote : String := "... (call depth limit reached)"

/-- The note where the path ends a walk. -/
def repeatNote (name : String) : String := name ++ "() (already called)"

/-- Whether a call from `caller` is drawn: its target is another known class of the program. -/
def CallRecord.isShown (model : CodeModel) (caller : String) (call : CallRecord) : Bool :=
  !Library.isLibraryType call.target && call.target != selfTarget && call.target != caller &&
    model.isKnown call.target

def CallRecord.label (call : CallRecord) (callee : Option MethodRecord) : String :=
  if call.kind == .onClass || callee.any (·.isStatic) then call.member ++ "() [static]"
  else call.member ++ "()"

/-- Draws one call of a method on behalf of `caller`. A construction is answered at once; any other
call is expanded by `expandCallee` if its method is known. -/
def drawCall (model : CodeModel) (expandCallee : MethodRecord → String → Walk → Walk)
    (caller : String) (walk : Walk) (call : CallRecord) : Walk :=
  if call.isShown model caller then
    let walk := walk.join call.target
    if call.kind = .construction then
      (walk.send caller call.target .activate ("new " ++ call.member ++ "()")).send
        call.target caller .reply "new instance"
    else
      let callee := model.findMethod call.target call.member
      let walk := walk.send caller call.target .call (call.label callee)
      -- A call of an unknown method is drawn, but nothing answers it.
      match callee with
      | none => walk
      | some method =>
        (expandCallee method call.target walk).send call.target caller .reply method.replyLabel
  else walk

/-- Draws what a method does, on behalf of `caller`. `remaining` is how many more methods may be
open. -/
def expand (model : CodeModel) :
    (remaining : Nat) → (method : MethodRecord) → (caller : String) → Walk → Walk
  | 0, _, caller, walk => walk.note caller depthNote
  | remaining + 1, method, caller, walk =>
    if method.key ∈ walk.path then walk.note caller (repeatNote method.name)
    else
      (method.calls.foldl (drawCall model (expand model remaining) caller)
        (walk.enter method.key)).leave method.key

/-- Draws the sequence of one entry method, from the client's call to its reply. -/
def Walk.runEntry (model : CodeModel) (options : WalkOptions) (walk : Walk) (className : String)
    (entry : MethodRecord) : Walk :=
  let walk := walk.join className
  let walk := walk.send client className .activate (entry.name ++ "()")
  let walk := expand model options.clamped.maxDepth entry className walk
  let walk := walk.send className client .return entry.replyLabel
  -- The next entry starts with no method open.
  { walk with path := [] }

/-- The sequence of one named entry method. An unknown method gives a note alone. -/
def traceEntry (model : CodeModel) (className methodName : String) (options : WalkOptions) :
    SequenceDiagram :=
  match model.findMethod className methodName with
  | none =>
    let text := "Method '" ++ methodName ++ "' not found"
    ({} : SequenceDiagram).addStep (.note className text)
  | some entry => ((({} : Walk).join client).runEntry model options className entry).diagram

/-- Whether a name looks like that of a getter or setter, whatever its parameters. -/
def looksLikeAccessor (name : String) : Bool :=
  Text.startsWith name "get" || Text.startsWith name "set" || Text.startsWith name "is"

/-- Whether a method may start a sequence without being named by the user. -/
def MethodRecord.isEntryCandidate (method : MethodRecord) : Bool :=
  method.visibility == .pub && !method.isConstructor && !looksLikeAccessor method.name &&
    !Library.isObjectMethod method.name

/-- The methods that start sequences: the first candidates in table order. -/
def entryMethods (model : CodeModel) (maxEntries : Nat) : List MethodRecord :=
  (model.methods.values.flatten.filter (·.isEntryCandidate)).take maxEntries

/-- The sequences of the first entry methods, each ended by a break. -/
def traceAllEntries (model : CodeModel) (options : WalkOptions) : SequenceDiagram :=
  match entryMethods model options.maxEntries with
  | [] => ({} : SequenceDiagram).addStep (.note client "No public methods found to display")
  | entries =>
    let walk := entries.foldl
      (fun walk entry =>
        let walk := walk.runEntry model options entry.owner entry
        { walk with diagram := walk.diagram.addStep .break })
      (({} : Walk).join client)
    walk.diagram

end JavaDiagram
