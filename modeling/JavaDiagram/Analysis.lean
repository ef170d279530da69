import JavaDiagram.Diagram.ClassDiagram
import JavaDiagram.Diagram.Walk
import JavaDiagram.Java.Extraction
import JavaDiagram.Model.Ingest
import JavaDiagram.Source

/-!
# Analysing sources

All source texts are parsed before the first one is taken into the model. They are taken in one by
one in their order, so that a later declaration of a name wins. The first text without a tree fails
the analysis.
-/

namespace JavaDiagram

/-- A model with the reports of the units it was built from. -/
structure Analysis where
  model : CodeModel := {}
  reports : List IngestReport := []

namespace Analysis

/-- The model of parsed units. -/
def ofUnits (units : List Java.SyntaxUnit) : Analysis :=
  let (model, reports) := CodeModel.ingestAll {} units
  ⟨model, reports⟩

/-- The model of several source texts, each given with its origin. -/
def ofTexts (texts : List (String × String)) : Analysis :=
  ofUnits (texts.map fun (origin, text) => Java.SyntaxUnit.ofSource origin text)

/-- The model of loaded sources, read with a parser. -/
def ofSources (parser : Java.Parser) (units : List SourceUnit) :
    Except Java.TreeError Analysis := do
  return ofUnits (← units.mapM fun unit => parser.read unit.origin unit.text)

/-- The grammar itself makes a tree of every text. -/
theorem ofSources_grammar (units : List SourceUnit) :
    ofSources {} units = .ok (ofTexts (units.map fun unit => (unit.origin, unit.text))) := by
  have read : units.mapM (fun unit => Java.Parser.read {} unit.origin unit.text) =
      .ok (units.map fun unit => Java.SyntaxUnit.ofSource unit.origin unit.text) :=
    List.mapM_pure
  rw [ofSources, read, ofTexts, List.map_map]
  rfl

/-- How many declarations could not be used. -/
def skipped (analysis : Analysis) : Nat :=
  (analysis.reports.flatMap (·.errors)).length

/-- The sequence diagram of a named method, or of the first entry methods if no method is named
completely. -/
def sequence (analysis : Analysis) (className methodName : Option String)
    (options : WalkOptions) : SequenceDiagram :=
  match className, methodName with
  | some c, some m => traceEntry analysis.model c m options
  | _, _ => traceAllEntries analysis.model options

end Analysis

end JavaDiagram
