import JavaDiagram.Analysis
import JavaDiagram.Archive.Inflate
import JavaDiagram.Archive.Zip
import JavaDiagram.Classification
import JavaDiagram.CommandLine
import JavaDiagram.Diagram.ClassDiagram
import JavaDiagram.Diagram.Comment
import JavaDiagram.Diagram.SequenceDiagram
import JavaDiagram.Diagram.Walk
import JavaDiagram.Files.FileSystem
import JavaDiagram.Files.Glob
import JavaDiagram.Files.IgnoreRules
import JavaDiagram.Files.Path
import JavaDiagram.Files.Scan
import JavaDiagram.Hash.Sha256
import JavaDiagram.Java.Declaration
import JavaDiagram.Java.Extraction
import JavaDiagram.Java.Grammar
import JavaDiagram.Java.Node
import JavaDiagram.Java.Rule
import JavaDiagram.Java.Source
import JavaDiagram.Java.Token
import JavaDiagram.Json
import JavaDiagram.Library
import JavaDiagram.LogFilter
import JavaDiagram.Main
import JavaDiagram.Model.Building
import JavaDiagram.Model.CodeModel
import JavaDiagram.Model.Document
import JavaDiagram.Model.Entity
import JavaDiagram.Model.FlowPattern
import JavaDiagram.Model.Ingest
import JavaDiagram.Model.NameSet
import JavaDiagram.Model.Table
import JavaDiagram.Program
import JavaDiagram.Settings
import JavaDiagram.Source
import JavaDiagram.Text.Blank
import JavaDiagram.Text.Digits
import JavaDiagram.Text.Identifier
import JavaDiagram.Text.Lines
import JavaDiagram.Text.Search
import JavaDiagram.Text.Utf8
import JavaDiagram.Toml.Document
import JavaDiagram.Toml.Reading
import JavaDiagram.Toml.Scalar
import JavaDiagram.TypeName
import JavaDiagram.Proofs.Nesting
import JavaDiagram.Proofs.Ingestion
import JavaDiagram.Proofs.ClosedForm
import JavaDiagram.Proofs.Edges
import JavaDiagram.Proofs.CallChains
import JavaDiagram.Proofs.Entries
import JavaDiagram.Proofs.LoggedWalk
import JavaDiagram.Proofs.OpenMethods
import JavaDiagram.Proofs.Collisions
import JavaDiagram.Proofs.Members
import JavaDiagram.Proofs.Saturation
import JavaDiagram.Proofs.Constructions
import JavaDiagram.Proofs.Reordering
import JavaDiagram.Proofs.FailedDeclarations
import JavaDiagram.Proofs.DeclarationSubtrees
import JavaDiagram.Proofs.Deduplication
import JavaDiagram.Proofs.ClientMessages
import JavaDiagram.Proofs.DiagramHeight
import JavaDiagram.Proofs.Deepening
import JavaDiagram.Proofs.UnrelatedUnits
import JavaDiagram.Proofs.Erasure
import JavaDiagram.Proofs.ClauseComments
import JavaDiagram.Proofs.TableInvariants
import JavaDiagram.Proofs.Reingestion
import JavaDiagram.Proofs.DiagramReading
import JavaDiagram.Proofs.Participants
import JavaDiagram.Proofs.ArrayMarkers
import JavaDiagram.Proofs.BarePaths
import JavaDiagram.Proofs.FileTrees
import JavaDiagram.Proofs.RunOutcomes
import JavaDiagram.Proofs.CommentSummaries
import JavaDiagram.Proofs.MemberViews
import JavaDiagram.Proofs.Placement
import JavaDiagram.Proofs.LexemePlaces
import JavaDiagram.Proofs.ParsedPlaces
import JavaDiagram.Proofs.NestedCode
import JavaDiagram.Proofs.SourceOrder
import JavaDiagram.Proofs.DamagedText
import JavaDiagram.Proofs.KeptUnits
import JavaDiagram.Proofs.LoadedSources
import JavaDiagram.Proofs.ShortComments
