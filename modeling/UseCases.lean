import UseCases.Files.World
import UseCases.Main
import UseCases.Proofs.CommandLine.Refusal
import UseCases.Proofs.CommandLine.Regeneration
import UseCases.Proofs.Dart.BlockComment
import UseCases.Proofs.Dart.CodeRows
import UseCases.Proofs.Dart.Comment
import UseCases.Proofs.Dart.CommentDepth
import UseCases.Proofs.Dart.Comparison
import UseCases.Proofs.Dart.Cut
import UseCases.Proofs.Dart.Depth
import UseCases.Proofs.Dart.Enclosing
import UseCases.Proofs.Dart.Indentation
import UseCases.Proofs.Dart.Layout
import UseCases.Proofs.Dart.LiteralLine
import UseCases.Proofs.Dart.LiteralReaders
import UseCases.Proofs.Dart.Matching
import UseCases.Proofs.Dart.NestedComma
import UseCases.Proofs.Dart.Nesting
import UseCases.Proofs.Dart.Offset
import UseCases.Proofs.Dart.Pieces
import UseCases.Proofs.Dart.Reading
import UseCases.Proofs.Dart.Spacing
import UseCases.Proofs.Dart.Spelling
import UseCases.Proofs.Dart.StrippedText
import UseCases.Proofs.Dart.Stripping
import UseCases.Proofs.Dart.Token
import UseCases.Proofs.Declaration.Accounting
import UseCases.Proofs.Declaration.Composition
import UseCases.Proofs.Declaration.Continuation
import UseCases.Proofs.Declaration.Coverage
import UseCases.Proofs.Declaration.Header
import UseCases.Proofs.Declaration.HeaderGrammar
import UseCases.Proofs.Declaration.MethodParts
import UseCases.Proofs.Declaration.Parameter
import UseCases.Proofs.Declaration.ParameterParts
import UseCases.Proofs.Declaration.PhysicalLine
import UseCases.Proofs.Declaration.Recommenting
import UseCases.Proofs.Declaration.RepositoryClass
import UseCases.Proofs.Declaration.RepositoryName
import UseCases.Proofs.Declaration.Slicing
import UseCases.Proofs.Files.Building
import UseCases.Proofs.Files.Destination
import UseCases.Proofs.Files.Ground
import UseCases.Proofs.Files.Linkless
import UseCases.Proofs.Files.Lookup
import UseCases.Proofs.Files.Making
import UseCases.Proofs.Files.Parent
import UseCases.Proofs.Files.Paving
import UseCases.Proofs.Files.Traversal
import UseCases.Proofs.Files.Tree
import UseCases.Proofs.Files.Walk
import UseCases.Proofs.Files.World
import UseCases.Proofs.Generation.Agreement
import UseCases.Proofs.Generation.ErrorUnion
import UseCases.Proofs.Generation.FailureImport
import UseCases.Proofs.Generation.Holder
import UseCases.Proofs.Generation.HolderNames
import UseCases.Proofs.Generation.Hygiene
import UseCases.Proofs.Generation.Mirror
import UseCases.Proofs.Generation.NamedGroup
import UseCases.Proofs.Generation.Naming
import UseCases.Proofs.Generation.PackageUri
import UseCases.Proofs.Generation.ParameterList
import UseCases.Proofs.Generation.PathSpelling
import UseCases.Proofs.Generation.SnakeCase
import UseCases.Proofs.Generation.UseCase
import UseCases.Proofs.Project.Collision
import UseCases.Proofs.Project.Confinement
import UseCases.Proofs.Project.Declarations
import UseCases.Proofs.Project.Deeds
import UseCases.Proofs.Project.Discovery
import UseCases.Proofs.Project.DryRun
import UseCases.Proofs.Project.Filling
import UseCases.Proofs.Project.Isolation
import UseCases.Proofs.Project.Opening
import UseCases.Proofs.Project.OutputFile
import UseCases.Proofs.Project.Preservation
import UseCases.Proofs.Project.Reordering
import UseCases.Proofs.Project.Repetition
import UseCases.Proofs.Project.Reporting
import UseCases.Proofs.Project.Run
import UseCases.Proofs.Project.Turns
import UseCases.Proofs.Settings.Label
import UseCases.Proofs.Text.Case
import UseCases.Proofs.Text.Order
import UseCases.Proofs.Text.Scanning
import UseCases.Proofs.Text.Slice
