import LeafPaths.Record
import LeafPaths.Error
import LeafPaths.FilePath
import LeafPaths.FileSystem.Search
import LeafPaths.FileSystem.Change
import LeafPaths.Main
import LeafPaths.Source.Position
import LeafPaths.Source.Token
import LeafPaths.Syntax
import LeafPaths.Syntax.Lowering
import LeafPaths.Source.Lexer
import LeafPaths.Outline
import LeafPaths.Proofs.Pairing
import LeafPaths.Proofs.RouteText
import LeafPaths.Proofs.Traversal
import LeafPaths.Proofs.Reference
import LeafPaths.Proofs.SourceWords
import LeafPaths.Proofs.SourceOrder
import LeafPaths.Proofs.LoweredTrees
import LeafPaths.Proofs.PathShape
import LeafPaths.Proofs.LoaderRuns
import LeafPaths.Proofs.RunOutput
import LeafPaths.Proofs.FileWrites
import LeafPaths.Proofs.AllOrNothing
import LeafPaths.Proofs.CsvRoundTrip
import LeafPaths.Proofs.JsonRoundTrip
import LeafPaths.Proofs.LowestAncestor
import LeafPaths.Proofs.NestedFunctions
import LeafPaths.Proofs.PairPositions
import LeafPaths.Proofs.NameOrder
import LeafPaths.Proofs.LoadingOrder
import LeafPaths.Proofs.FolderSources
import LeafPaths.Proofs.FailedFiles
import LeafPaths.Proofs.RouteReversal
import LeafPaths.Proofs.TokenRenaming
import LeafPaths.Proofs.SearchDepth
import LeafPaths.Proofs.TreeGrammar
import LeafPaths.Proofs.ShownParts
import LeafPaths.Proofs.TreeShape
import LeafPaths.Proofs.SubtreeEdits
import LeafPaths.Proofs.LimitedSinks
import LeafPaths.Proofs.StrippedSyntax
import LeafPaths.Proofs.FunctionGroups
import LeafPaths.Proofs.ExactWalks
import LeafPaths.Proofs.SharedPrefixes
import LeafPaths.Proofs.MacroNesting
import LeafPaths.Proofs.PlainRecords
import LeafPaths.Proofs.ParserProgress
import LeafPaths.Proofs.TypeProgress
import LeafPaths.Proofs.GrammarProgress
