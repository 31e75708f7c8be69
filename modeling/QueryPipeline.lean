import QueryPipeline.Main
import QueryPipeline.Proofs.AllRows
import QueryPipeline.Proofs.InternalErrors
import QueryPipeline.Proofs.Materialization
import QueryPipeline.Proofs.Nesting
import QueryPipeline.Proofs.Predicates
import QueryPipeline.Proofs.Resolution
import QueryPipeline.Proofs.Terminals
import QueryPipeline.Proofs.TextGrouping
import QueryPipeline.Proofs.Translation
import QueryPipeline.Sql.Replacement
import QueryPipeline.Proofs.Numerals
import QueryPipeline.Proofs.Scanning
import QueryPipeline.Proofs.Words
import QueryPipeline.Proofs.PlainScalars
import QueryPipeline.Proofs.Comments
import QueryPipeline.Proofs.Leaves
import QueryPipeline.Proofs.ColumnNames
import QueryPipeline.Proofs.NullComparisons
import QueryPipeline.Proofs.Absence
import QueryPipeline.Proofs.EmptyAggregates
import QueryPipeline.Proofs.ParameterLists
import QueryPipeline.Proofs.OrderKeys
import QueryPipeline.Proofs.QueryInterchange
import QueryPipeline.Proofs.RepeatedKeys
import QueryPipeline.Proofs.LikePatterns
import QueryPipeline.Proofs.TextPositions
import QueryPipeline.Proofs.QuotedNames
import QueryPipeline.Proofs.NumberLiterals
import QueryPipeline.Proofs.FilledMappings
import QueryPipeline.Proofs.AddedColumns
import QueryPipeline.Proofs.NameSequences
import QueryPipeline.Proofs.Slots
import QueryPipeline.Expr.Rewriting
import QueryPipeline.Proofs.Inlining
import QueryPipeline.Proofs.PlainReplacement
import QueryPipeline.Proofs.ReplacedParameters
import QueryPipeline.Proofs.Registration
