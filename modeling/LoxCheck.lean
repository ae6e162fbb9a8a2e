import LoxCheck.Command.FileTree
import LoxCheck.Command.Run
import LoxCheck.Main
import LoxCheck.Proofs.AssignmentChains
import LoxCheck.Proofs.BlankedSources
import LoxCheck.Proofs.BlockComments
import LoxCheck.Proofs.CallSequences
import LoxCheck.Proofs.CarriageReturns
import LoxCheck.Proofs.CursorOffsets
import LoxCheck.Proofs.ErrorOrder
import LoxCheck.Proofs.FailureReports
import LoxCheck.Proofs.LineBreaks
import LoxCheck.Proofs.LineNumbers
import LoxCheck.Proofs.Locality
import LoxCheck.Proofs.LongSums
import LoxCheck.Proofs.Lookahead
import LoxCheck.Proofs.NearestNumbers
import LoxCheck.Proofs.NestingLimit
import LoxCheck.Proofs.OverdeepBlocks
import LoxCheck.Proofs.PlacedTokens
import LoxCheck.Proofs.QuotedText
import LoxCheck.Proofs.SameDocuments
import LoxCheck.Proofs.SameKinds
import LoxCheck.Proofs.SourceFiles
import LoxCheck.Proofs.SpelledWords
import LoxCheck.Proofs.Spelling
import LoxCheck.Proofs.StatementBoundaries
import LoxCheck.Proofs.TokenDumps
import LoxCheck.Proofs.TreeDepths
