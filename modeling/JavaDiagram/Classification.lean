import JavaDiagram.Text.Search

/-!
# Visibility and method kinds

Every member has exactly one visibility and every method exactly one kind; both have a glyph in the
class diagram.
-/

namespace JavaDiagram

/-- Access level of a field, method or constructor. -/
inductive Visibility where
  | priv
  | pub
  | prot
  | package
  deriving DecidableEq, Repr

namespace Visibility

/-- `private` wins over `public`, which wins over `protected`; without any of them a member belongs
to its package. -/
def ofModifiers (isPrivate isPublic isProtected : Bool) : Visibility :=
  if isPrivate then priv
  else if isPublic then pub
  else if isProtected then prot
  else package

def name : Visibility → String
  | priv => "private"
  | pub => "public"
  | prot => "protected"
  | package => "package"

/-- The glyph in front of a method or constructor. -/
def glyph : Visibility → String
  | priv => "🔒"
  | pub => "🟢"
  | prot => "🛡️"
  | package => "~"

/-- The glyph in front of a field: only package access looks different from a method's. -/
def fieldGlyph : Visibility → String
  | package => "🅾️"
  | other => other.glyph

end Visibility

/-- What a method is for. -/
inductive MethodKind where
  /-- `getX()` or `isX()` without parameters, or `setX(..)` with at least one. -/
  | accessor
  /-- `toString`, `hashCode` or `equals`, with or without an override annotation. -/
  | framework (overridden : Bool)
  /-- An override annotation on anything else. -/
  | override
  | user
  deriving DecidableEq, Repr

namespace MethodKind

def name : MethodKind → String
  | accessor => "accessor"
  | framework _ => "framework"
  | override => "override"
  | user => "user"

/-- The marker in front of a signature in the class diagram. -/
def marker : MethodKind → String
  | accessor => "🔘"
  | framework true => "🔁🏛"
  | framework false => "🏛"
  | override => "🔁"
  | user => "🛠"

end MethodKind

/-- The methods every object has that a class may define anew. -/
def frameworkMethods : List String :=
  ["toString", "hashCode", "equals"]

/-- With parameters an accessor sets, without it gets. -/
def isAccessor (name : String) (paramCount : Nat) : Bool :=
  if 0 < paramCount then Text.startsWith name "set"
  else Text.startsWith name "get" || Text.startsWith name "is"

/-- The kind of a method: accessors first, then framework methods, then overrides. -/
def classifyMethod (name : String) (paramCount : Nat) (isOverride : Bool) : MethodKind :=
  if isAccessor name paramCount then .accessor
  else if name ∈ frameworkMethods then .framework isOverride
  else if isOverride then .override
  else .user

end JavaDiagram
