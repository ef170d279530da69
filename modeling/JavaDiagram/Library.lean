import JavaDiagram.Text.Search

/-!
# Library names

Types of the standard library and of common frameworks never take part in a sequence, and methods
that every object has are no entry points. The lists are fixed: any other name counts as a class of
the program.
-/

namespace JavaDiagram.Library

/-- Packages whose types are library types when the name is written with its package. -/
def packagePrefixes : List String :=
  ["java.", "javax.", "org.springframework.", "com.fasterxml."]

def typeNames : List String :=
  ["String", "Object", "System", "StringBuilder", "StringBuffer", "ArrayList", "HashMap",
    "LinkedList", "HashSet", "TreeSet", "List", "Map", "Set", "Collection", "Optional", "Stream",
    "Logger", "Exception", "RuntimeException"]

/-- Methods that every object has. -/
def objectMethods : List String :=
  ["toString", "hashCode", "equals", "clone", "finalize", "wait", "notify", "notifyAll"]

/-- Whether a name stands for a library type. The empty name counts as one. -/
def isLibraryType (name : String) : Bool :=
  name.isEmpty || packagePrefixes.any (Text.startsWith name) || typeNames.contains name

def isObjectMethod (name : String) : Bool :=
  objectMethods.contains name

end JavaDiagram.Library
