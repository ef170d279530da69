/-!
# Source texts and extents

An extent says where a piece of a source text lies: the positions of its first character and of the
first character behind it, and the line on which it starts. Lines count from 1, and line feeds
alone end them.
-/

namespace JavaDiagram.Java

/-- Where a piece of a source text lies. -/
structure Extent where
  start : Nat
  stop : Nat
  line : Nat
  deriving DecidableEq, Repr, Inhabited

namespace Extent

/-- The smallest extent from the start of one to the end of another. -/
def upTo (first last : Extent) : Extent :=
  { first with stop := last.stop }

end Extent

/-- The characters of a source text. -/
abbrev SourceText := Array Char

namespace SourceText

/-- The part of a source text that an extent covers. -/
def slice (source : SourceText) (extent : Extent) : String :=
  String.ofList (source.extract extent.start extent.stop).toList

end SourceText

end JavaDiagram.Java
