import JavaDiagram.Java.Node
import JavaDiagram.Java.Token

/-!
# Grammar rules

A rule is data: it says which tokens it takes from a place in the token sequence and which nodes it
makes of them. Choices are ordered, and the first alternative that fits is kept, so a rule has at
most one result at each place. Left recursion is written as `grow`: a base, then suffixes as long as
one fits.

Comments stand in front of tokens. They become children of the smallest node that they do not
begin.
-/

namespace JavaDiagram.Java

/-- The parts of the grammar that refer to one another. -/
inductive Phrase where
  | typeArguments
  | annotationUse
  | elementValue
  | expression
  | operand
  | caseExpression
  | caseOperand
  | parenthesized
  | arguments
  | arrayInitializer
  | pattern
  | block
  | statement
  | classBody
  | member
  | interfaceMember
  | annotationMember
  | declaration
  deriving DecidableEq, Repr

mutual

/-- What a place in the token sequence may hold, and the nodes it gives. -/
inductive Rule where
  /-- Nothing. -/
  | empty
  /-- Only the end of the source. -/
  | atEnd
  /-- A word or symbol with this text. -/
  | exact (text : String)
  /-- The same, without anything between it and the token in front. -/
  | glued (text : String)
  /-- Any word but these, as an identifier. -/
  | nameExcept (words : List String)
  /-- A token of a kind, as a literal. -/
  | literal (kind : TokenKind)
  /-- Any token, as an error. -/
  | skip
  /-- Nothing, with an error to mark that something is absent. -/
  | fault
  | seq (first second : Rule)
  | orElse (first second : Rule)
  /-- A rule as often as it fits. -/
  | many (rule : Rule)
  /-- Nothing, if the rule fits here. -/
  | ahead (rule : Rule)
  /-- Nothing, unless the rule fits here. -/
  | notAhead (rule : Rule)
  /-- One node over all that the rule gives. -/
  | node (kind : NodeKind) (rule : Rule)
  /-- The nodes of the rule, as this part of their parent. -/
  | label (label : NodeLabel) (rule : Rule)
  /-- A rule that gives one node, and suffixes that each wrap all before them. -/
  | grow (base : Rule) (suffixes : List Suffix)
  /-- The suffixes alone, behind a given node. -/
  | extend (left : Node) (suffixes : List Suffix)
  | ref (phrase : Phrase)

/-- A suffix: behind which kinds of nodes it may stand (any if the list is empty), the kind of the
node over both, which part the node in front becomes, and what follows it. -/
inductive Suffix where
  | mk (behind : List NodeKind) (kind : NodeKind) (left : Option NodeLabel) (rule : Rule)

end

namespace Suffix

/-- Whether a suffix may stand behind a node. -/
def fits (node : Node) : Suffix → Bool
  | mk behind _ _ _ => behind.isEmpty || behind.contains node.kind

/-- What a suffix takes. -/
def rule : Suffix → Rule
  | mk _ _ _ rule => rule

/-- The node over the left node and the nodes behind it. -/
def wrap (left : Node) (right : List Node) : Suffix → Node
  | mk _ kind label _ =>
    let left' := (label.map fun l => left.withLabel l).getD left
    .mk kind none (left.extent.upTo ((right.getLast?.getD left).extent)) (left' :: right)

end Suffix

namespace Rule

instance : Coe String Rule := ⟨exact⟩
instance : Coe Phrase Rule := ⟨ref⟩

def all : List Rule → Rule
  | [] => empty
  | [rule] => rule
  | rule :: rest => seq rule (all rest)

/-- The first of the rules that fits. -/
def choice : List Rule → Rule
  | [] => notAhead empty
  | [rule] => rule
  | rule :: rest => orElse rule (choice rest)

def optional (rule : Rule) : Rule :=
  orElse rule empty

def many1 (rule : Rule) : Rule :=
  seq rule (many rule)

/-- A rule at least once, with a separator between neighbours. -/
def separated (separator rule : Rule) : Rule :=
  seq rule (many (seq separator rule))

def commas (rule : Rule) : Rule :=
  optional (separated (exact ",") rule)

def parens (rule : Rule) : Rule :=
  all [exact "(", rule, exact ")"]

def anyName : Rule :=
  nameExcept []

def oneOf (texts : List String) : Rule :=
  choice (texts.map exact)

end Rule

/-! ### Applying rules -/

/-- A token and the comments in front of it. -/
structure Item where
  comments : List SourceComment
  token : Token

/-- A source cut into tokens, each with the comments in front of it, and the comments at its end. -/
structure ItemSequence where
  items : Array Item := #[]
  trailing : List SourceComment := []

namespace ItemSequence

/-- The items of lexemes. -/
def ofLexemes (found : List Lexeme) : ItemSequence :=
  let (items, comments) := found.foldl
    (fun (items, comments) lexeme =>
      match lexeme.token?, lexeme.comment? with
      | some token, _ => (items.push ⟨comments.reverse, token⟩, [])
      | none, some comment => (items, comment :: comments)
      | none, none => (items, comments))
    ((#[] : Array Item), ([] : List SourceComment))
  ⟨items, comments.reverse⟩

/-- The empty extent behind the first `count` tokens. -/
def gapAfter (input : ItemSequence) : (count : Nat) → Extent
  | 0 => ⟨0, 0, 1⟩
  | last + 1 =>
    match input.items[last]? with
    | some ⟨_, token⟩ =>
      ⟨token.extent.stop, token.extent.stop, token.extent.line + token.text.toList.count '\n'⟩
    | none => ⟨0, 0, 1⟩

/-- Whether nothing stands between a token and the one in front of it. -/
def isGlued (input : ItemSequence) (index : Nat) (token : Token) : Bool :=
  0 < index && (input.gapAfter index).stop == token.extent.start

end ItemSequence

def SourceComment.node (comment : SourceComment) : Node :=
  .leaf (if comment.isBlock then .blockComment else .lineComment) comment.extent

/-- The nodes of a token and of the comments in front of it. -/
def Item.nodes (item : Item) (kind : NodeKind) : List Node :=
  item.comments.map (·.node) ++ [.leaf kind item.token.extent]

/-- Whether a token is a word or symbol with a text. -/
def Token.isExact (token : Token) (text : String) : Bool :=
  (token.kind == .word || token.kind == .symbol) && token.text == text

/-- Puts a node over nodes; comments at their start stay in front of it. -/
def gather (kind : NodeKind) (nodes : List Node) : List Node :=
  let comments := nodes.takeWhile (·.isComment)
  match nodes.dropWhile (·.isComment) with
  | [] => comments
  | first :: rest =>
    let extent := first.extent.upTo ((rest.getLast?.getD first).extent)
    comments ++ [.mk kind none extent (first :: rest)]

/-- The nodes that a rule gives, and the index of the token behind them. -/
abbrev Outcome := Option (List Node × Nat)

/-- Takes the token at an index as a node, if it passes a test. -/
def takeToken (input : ItemSequence) (index : Nat) (kind : NodeKind) (test : Token → Bool) :
    Outcome :=
  match input.items[index]? with
  | some item => if test item.token then some (item.nodes kind, index + 1) else none
  | none => none

/-- Applies a rule at the token with an index. `fuel` bounds how deep rules are nested. -/
def Rule.run (grammar : Phrase → Rule) (input : ItemSequence) :
    (fuel : Nat) → Rule → (index : Nat) → Outcome
  | 0, _, _ => none
  | fuel + 1, rule, index =>
    match rule with
    | empty => some ([], index)
    | atEnd => if index < input.items.size then none else some ([], index)
    | exact text => takeToken input index .token (·.isExact text)
    | glued text =>
      takeToken input index .token fun token =>
        token.isExact text && input.isGlued index token
    | nameExcept words =>
      takeToken input index .identifier fun token =>
        token.kind == .word && !words.contains token.text
    | literal kind => takeToken input index .literal (·.kind == kind)
    | skip => takeToken input index .error fun _ => true
    | fault => some ([.leaf .error (input.gapAfter index)], index)
    | seq first second => do
      let (nodes, next) ← run grammar input fuel first index
      let (more, last) ← run grammar input fuel second next
      return (nodes ++ more, last)
    | orElse first second =>
      match run grammar input fuel first index with
      | some outcome => some outcome
      | none => run grammar input fuel second index
    | many rule =>
      match run grammar input fuel rule index with
      | none => some ([], index)
      | some (nodes, next) =>
        -- A rule that takes nothing would fit again for ever.
        if index < next then do
          let (more, last) ← run grammar input fuel (many rule) next
          return (nodes ++ more, last)
        else some ([], index)
    | ahead rule => (run grammar input fuel rule index).map fun _ => ([], index)
    | notAhead rule =>
      match run grammar input fuel rule index with
      | none => some ([], index)
      | some _ => none
    | node kind rule => do
      let (nodes, next) ← run grammar input fuel rule index
      return (gather kind nodes, next)
    | label part rule => do
      let (nodes, next) ← run grammar input fuel rule index
      return (nodes.map (·.withLabel part), next)
    | grow base suffixes => do
      let (nodes, next) ← run grammar input fuel base index
      match nodes.getLast? with
      | none => return ([], next)
      | some left =>
        let (more, last) ← run grammar input fuel (extend left suffixes) next
        -- Comments in front of the base stay in front of what the suffixes make of it.
        return (nodes.dropLast ++ more, last)
    | extend left suffixes =>
      let wrapped := suffixes.findSome? fun suffix =>
        if suffix.fits left then
          (run grammar input fuel suffix.rule index).map fun (nodes, next) =>
            (suffix.wrap left nodes, next)
        else none
      match wrapped with
      | some (left, next) => run grammar input fuel (extend left suffixes) next
      | none => some ([left], index)
    | ref phrase => run grammar input fuel (grammar phrase) index

/-- More than rules are ever nested for one token. -/
def fuelPerToken : Nat := 1000

/-- The syntax tree of a text by a rule that takes all its tokens. -/
def Rule.parse (grammar : Phrase → Rule) (rule : Rule) (cs : List Char) : Node :=
  let input := ItemSequence.ofLexemes (lexemes cs)
  let fuel := fuelPerToken * (input.items.size + 1)
  let nodes :=
    match rule.run grammar input fuel 0 with
    | some (nodes, _) => nodes
    | none => []
  .mk .program none ⟨0, cs.length, 1⟩ (nodes ++ input.trailing.map (·.node))

end JavaDiagram.Java
