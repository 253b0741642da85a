import Unclosed.Load.TypeName
import Unclosed.Main
import Unclosed.Proofs.BodyNames
import Unclosed.Proofs.BodyScans
import Unclosed.Proofs.FactFiles
import Unclosed.Proofs.FieldLines
import Unclosed.Proofs.FunctionKeys
import Unclosed.Proofs.ImportWaves
import Unclosed.Proofs.InformedScans
import Unclosed.Proofs.InterleavedAnalyses
import Unclosed.Proofs.LinePositions
import Unclosed.Proofs.LoadResults
import Unclosed.Proofs.MoreDisposers
import Unclosed.Proofs.OperatorTrees
import Unclosed.Proofs.OutlinedStatements
import Unclosed.Proofs.ParameterLists
import Unclosed.Proofs.ParseErrors
import Unclosed.Proofs.RangeLoops
import Unclosed.Proofs.RepeatedSummaries
import Unclosed.Proofs.SatisfiedInterfaces
import Unclosed.Proofs.StoreHistories
import Unclosed.Proofs.TableRuns
import Unclosed.Proofs.WrittenCodes
import Unclosed.Proofs.WrittenLiterals
import Unclosed.Storage.Disk
import Unclosed.Syntax.Walk
