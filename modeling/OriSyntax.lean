import OriSyntax.Main
import OriSyntax.Tree.Depth
import OriSyntax.Tree.Visit
import OriSyntax.Proofs.Contract
import OriSyntax.Proofs.Reading
import OriSyntax.Proofs.Progress
import OriSyntax.Proofs.Delimiters
import OriSyntax.Proofs.Pieces
import OriSyntax.Proofs.Bodies
import OriSyntax.Proofs.Covering
import OriSyntax.Proofs.Accounting
import OriSyntax.Proofs.ExprAccounts
import OriSyntax.Proofs.StmtAccounts
import OriSyntax.Proofs.FileAccounts
import OriSyntax.Proofs.Lossless
import OriSyntax.Proofs.Braces
import OriSyntax.Proofs.Outcomes
import OriSyntax.Proofs.Slots
import OriSyntax.Proofs.WellFormed
import OriSyntax.Proofs.ExprComplete
import OriSyntax.Proofs.DeclComplete
import OriSyntax.Proofs.SlotKinds
import OriSyntax.Proofs.StmtComplete
import OriSyntax.Proofs.LoopComplete
import OriSyntax.Proofs.FileComplete
import OriSyntax.Proofs.Heights
import OriSyntax.Proofs.Levels
import OriSyntax.Proofs.Extents
import OriSyntax.Proofs.Nesting
import OriSyntax.Proofs.Shapes
import OriSyntax.Proofs.Shaping
import OriSyntax.Proofs.StmtShaping
import OriSyntax.Proofs.Branches
import OriSyntax.Proofs.Reports
import OriSyntax.Proofs.Placing
import OriSyntax.Proofs.Agreement
import OriSyntax.Proofs.Termination
import OriSyntax.Proofs.Discipline
import OriSyntax.Proofs.Scanning
import OriSyntax.Proofs.Spelling
import OriSyntax.Proofs.Comments
import OriSyntax.Proofs.Alike
import OriSyntax.Proofs.Silence
import OriSyntax.Proofs.Coupling
import OriSyntax.Proofs.Mirroring
import OriSyntax.Proofs.MirroredSteps
import OriSyntax.Proofs.MirroredExprs
import OriSyntax.Proofs.MirroredDecls
import OriSyntax.Proofs.MirroredStmts
import OriSyntax.Proofs.MirroredLoops
import OriSyntax.Proofs.MirroredFiles
import OriSyntax.Proofs.Layout
import OriSyntax.Proofs.Coincidence
import OriSyntax.Proofs.Boundaries
import OriSyntax.Proofs.Walks
import OriSyntax.Proofs.Rendering
import OriSyntax.Proofs.Listings
import OriSyntax.Proofs.ListedNodes
import OriSyntax.Proofs.Streams
import OriSyntax.Proofs.EveryExpr
import OriSyntax.Proofs.Binding
import OriSyntax.Proofs.Legality
import OriSyntax.Proofs.Running
import OriSyntax.Proofs.Origins
import OriSyntax.Proofs.Languages
import OriSyntax.Proofs.LongestMatch
import OriSyntax.Proofs.LineBreaks
import OriSyntax.Proofs.Relexing
import OriSyntax.Proofs.LineEndings
import OriSyntax.Proofs.ListSkips
import OriSyntax.Proofs.Failing
import OriSyntax.Proofs.Rejoining
import OriSyntax.Proofs.LineRecovery
import OriSyntax.Proofs.Enclosing
import OriSyntax.Proofs.Entering
import OriSyntax.Proofs.Removal
import OriSyntax.Proofs.DeepBlocks
import OriSyntax.Proofs.Skips
import OriSyntax.Proofs.Quoting
import OriSyntax.Proofs.TokenListings
import OriSyntax.Proofs.FileReports
import OriSyntax.Proofs.LexicalErrors
import OriSyntax.Proofs.Indentation
import OriSyntax.Proofs.Readable
import OriSyntax.Proofs.ReadableFiles
import OriSyntax.Proofs.LegibleTrees
import OriSyntax.Proofs.Lookahead
import OriSyntax.Proofs.Discoveries
