import DuckdbEngine.Lib.StepRun
import DuckdbEngine.Lib.KeyedLog
import DuckdbEngine.Lib.KeyedList
import DuckdbEngine.Runtime.Table
import DuckdbEngine.Runtime.Catalog
import DuckdbEngine.Runtime.Duckdb
import DuckdbEngine.Runtime.Connection
import DuckdbEngine.Runtime.DeltaAppender
import DuckdbEngine.Handler.Session
import DuckdbEngine.Handler.RowOps
import DuckdbEngine.Handler.Statements
import DuckdbEngine.Proofs.CurrentSchema
import DuckdbEngine.Proofs.Merge
import DuckdbEngine.Proofs.Append
import DuckdbEngine.Proofs.Flush
import DuckdbEngine.Proofs.Appenders
import DuckdbEngine.Proofs.MixedBatch
import DuckdbEngine.Proofs.RowPlan
import DuckdbEngine.Proofs.Transaction
import DuckdbEngine.Proofs.RowSpec
import DuckdbEngine.Proofs.Refinement
import DuckdbEngine.Proofs.IssueOrder
import DuckdbEngine.Proofs.TransactionEnd
import DuckdbEngine.Proofs.Reads
import DuckdbEngine.Proofs.KeyMoves
import DuckdbEngine.Autoinc.Disjoint
import DuckdbEngine.Autoinc.Explicit
import DuckdbEngine.Proofs.Sequences
import DuckdbEngine.CrossEngine.Query
import DuckdbEngine.Lib.LastWrite
import DuckdbEngine.CrossEngine.Scan
import DuckdbEngine.CrossEngine.Prefilter
import DuckdbEngine.CrossEngine.Registry
import DuckdbEngine.Lib.Lexing
import DuckdbEngine.Sql.Region
import DuckdbEngine.Sql.QuoteGuard
import DuckdbEngine.Sql.Tokens
import DuckdbEngine.Sql.MariadbTokens
import DuckdbEngine.Convertor.DmlText
import DuckdbEngine.Convertor.DmlRoundTrip
import DuckdbEngine.Convertor.Field
import DuckdbEngine.Lib.KeyedEdits
import DuckdbEngine.Runtime.Columns
import DuckdbEngine.Convertor.Alter
import DuckdbEngine.Proofs.AlterRun
import DuckdbEngine.Proofs.AlterNames
import DuckdbEngine.Proofs.AlterTypes
import DuckdbEngine.Proofs.AlterDefaults
import DuckdbEngine.Convertor.InsertPaths
import DuckdbEngine.Lib.TextEdits
import DuckdbEngine.Lib.WhileLoop
import DuckdbEngine.Lib.IndexLoop
import DuckdbEngine.Pushdown.Passes
import DuckdbEngine.Pushdown.Rounds
import DuckdbEngine.Proofs.BatchMode
import DuckdbEngine.Proofs.ReplicatedUpdate
import DuckdbEngine.Sql.Backticks
import DuckdbEngine.Pushdown.Forward
import DuckdbEngine.Pushdown.LimitClause
import DuckdbEngine.Pushdown.JoinClause
import DuckdbEngine.Pushdown.Matches
import DuckdbEngine.Pushdown.Unchanged
import DuckdbEngine.Pushdown.SourceQuery
import DuckdbEngine.Lib.Since
import DuckdbEngine.Runtime.Interrupt
import DuckdbEngine.Lib.PullStream
import DuckdbEngine.CrossEngine.ScanEnd
import DuckdbEngine.CrossEngine.Values
import DuckdbEngine.Handler.RecordBytes
import DuckdbEngine.Proofs.ModifiedColumns
import DuckdbEngine.Lib.Positional
import DuckdbEngine.Lib.Calendar
import DuckdbEngine.Lib.SyncCode
import DuckdbEngine.Compat.HexOctBin
import DuckdbEngine.Compat.Daynr
import DuckdbEngine.Compat.Week
import DuckdbEngine.Compat.Locate
import DuckdbEngine.Runtime.Decimal
import DuckdbEngine.Runtime.AppendTemporal
import DuckdbEngine.Convertor.TimeValues
import DuckdbEngine.CrossEngine.Fiber
import DuckdbEngine.Convertor.VcolDefs
import DuckdbEngine.Lib.MachineInt
import DuckdbEngine.Lib.JsonString
import DuckdbEngine.Compat.Ord
import DuckdbEngine.Compat.TimeInterval
import DuckdbEngine.Compat.JsonUnquote
import DuckdbEngine.Proofs.BufferNames
import DuckdbEngine.Convertor.SequenceNames
import DuckdbEngine.Pushdown.Loops
import DuckdbEngine.Lib.WriteThrough
import DuckdbEngine.Runtime.TimeZone
import DuckdbEngine.Runtime.SessionConfig
import DuckdbEngine.Sql.Scripts
import DuckdbEngine.Convertor.DdlText
import DuckdbEngine.Convertor.DdlRoundTrip
import DuckdbEngine.Convertor.CreateRoundTrip
import DuckdbEngine.Handler.DdlTexts
import DuckdbEngine.Lib.NamedTable
import DuckdbEngine.Runtime.BufferText
import DuckdbEngine.Proofs.BufferTexts
import DuckdbEngine.Lib.DigitText
import DuckdbEngine.Convertor.StoredValues
import DuckdbEngine.Proofs.ValueRoundTrip
import DuckdbEngine.Handler.Scans
import DuckdbEngine.Pushdown.ConvertTree
import DuckdbEngine.Pushdown.Lexemes
import DuckdbEngine.Pushdown.LexemeText
import DuckdbEngine.Pushdown.LexemeRounds
import DuckdbEngine.Pushdown.LexemeConvert
import DuckdbEngine.Pushdown.LexemeRollup
import DuckdbEngine.Pushdown.LexemeLimit
import DuckdbEngine.Pushdown.GuardedQuery
