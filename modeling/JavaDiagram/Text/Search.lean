/-!
# Finding texts

A text is looked for anywhere in another one, or a pattern is fitted at its start. A pattern says
how many characters it takes there, if it fits at all. It takes as many as it can and is never asked
for fewer.
-/

namespace JavaDiagram.Text

/-! ### Texts inside a text -/

/-- Whether `pattern` occurs in the text. -/
def hasInfix (pattern : List Char) : List Char → Bool
  | [] => pattern.isEmpty
  | c :: rest => pattern.isPrefixOf (c :: rest) || hasInfix pattern rest

def contains (s pattern : String) : Bool :=
  hasInfix pattern.toList s.toList

def startsWith (s start : String) : Bool :=
  start.toList.isPrefixOf s.toList

/-- A pattern occurs exactly if the text splits around it. -/
theorem hasInfix_iff {pattern cs : List Char} : hasInfix pattern cs = true ↔ pattern <:+: cs := by
  induction cs with
  | nil => cases pattern <;> simp [hasInfix]
  | cons c rest ih =>
    simp only [hasInfix, Bool.or_eq_true, List.isPrefixOf_iff_prefix, ih]
    exact List.infix_cons_iff.symm

/-! ### Patterns at the start of a text -/

/-- How many characters at the start of a text a pattern takes. -/
abbrev Pattern := List Char → Option Nat

namespace Pattern

/-- One character that passes a test. -/
def char (test : Char → Bool) : Pattern
  | c :: _ => if test c then some 1 else none
  | [] => none

def oneOf (chars : String) : Pattern :=
  char fun c => chars.toList.contains c

/-- Any number of characters that pass a test. -/
def run (test : Char → Bool) : Pattern :=
  fun cs => some (cs.takeWhile test).length

def word (s : String) : Pattern :=
  fun cs => if s.toList.isPrefixOf cs then some s.length else none

def seq (first second : Pattern) : Pattern := fun cs => do
  let n ← first cs
  let m ← second (cs.drop n)
  return n + m

instance : Append Pattern := ⟨seq⟩

def optional (pattern : Pattern) : Pattern :=
  fun cs => some ((pattern cs).getD 0)

/-- Whichever of the patterns takes most. -/
def longest (patterns : List Pattern) : Pattern :=
  fun cs => (patterns.filterMap (· cs)).max?

/-- Nothing, at the end of the text. -/
def atEnd : Pattern := fun cs => if cs.isEmpty then some 0 else none

/-- How many characters a pattern takes when it is used again and again, at most `times` times. -/
def lengthOfTimes (pattern : Pattern) : (times : Nat) → List Char → Nat
  | 0, _ => 0
  | times + 1, cs =>
    match pattern cs with
    | some n => n + lengthOfTimes pattern times (cs.drop n)
    | none => 0

/-- A pattern as often as it fits. -/
def many (pattern : Pattern) : Pattern :=
  fun cs => some (lengthOfTimes pattern cs.length cs)

end Pattern

end JavaDiagram.Text
