import QuasarDB.Library.Prog
import QuasarDB.Library.RawArray
import QuasarDB.Library.SortedChunks
import QuasarDB.Storage.Node
import QuasarDB.Storage.Tree
import QuasarDB.Storage.Proofs.Node
import QuasarDB.Storage.Proofs.Representation
import QuasarDB.Storage.Proofs.LeafBalance
import QuasarDB.Storage.Proofs.Order
import QuasarDB.Storage.Proofs.Search
import QuasarDB.Storage.Proofs.Rebalance
import QuasarDB.Storage.Proofs.Insert
import QuasarDB.Storage.Proofs.RootSplit
import QuasarDB.Storage.Proofs.InsertRuns
import QuasarDB.Storage.Proofs.Underflow
import QuasarDB.Storage.Proofs.Remove
import QuasarDB.Storage.Proofs.RemoveRuns
import QuasarDB.Storage.Proofs.Integrity
import QuasarDB.Storage.Proofs.TreeRuns
import QuasarDB.Core.Json
import QuasarDB.Core.Message
import QuasarDB.Server.Ast
import QuasarDB.Server.Lexer
import QuasarDB.Library.TokenReader
import QuasarDB.Server.Parser
import QuasarDB.Server.Grammar
import QuasarDB.Server.Proofs.ParserSound
import QuasarDB.Server.Proofs.ParserLanguage
import QuasarDB.Server.Proofs.ParserEnds
import QuasarDB.Server.Printer
import QuasarDB.Server.Proofs.LexerSpells
import QuasarDB.Server.Proofs.ParserComplete
import QuasarDB.Server.Proofs.ParsePrint
import QuasarDB.Server.AstJson
import QuasarDB.Server.Proofs.ParserPrintable
import QuasarDB.Server.Proofs.AstJsonRoundTrip
import QuasarDB.Core.JsonFile
import QuasarDB.Server.Rbac
import QuasarDB.Server.Security
import QuasarDB.Server.Catalog
import QuasarDB.Server.Registry
import QuasarDB.Server.Proofs.RouterEffects
import QuasarDB.Server.Proofs.CatalogRegistry
import QuasarDB.Server.Analyzer
import QuasarDB.Server.Application
import QuasarDB.Server.Proofs.Handlers
import QuasarDB.Server.Proofs.Mediation
import QuasarDB.Server.Proofs.AccountFile
import QuasarDB.Server.Proofs.Delegation
import QuasarDB.Server.Proofs.AccountRuns
import QuasarDB.Server.Proofs.TaskRuns
import QuasarDB.Library.BinaryFile
import QuasarDB.Storage.Value
import QuasarDB.Storage.Record
import QuasarDB.Storage.Journal
import QuasarDB.Storage.Proofs.JournalStack
import QuasarDB.Client.Reader
import QuasarDB.Server.Proofs.LexerTokens
import QuasarDB.Client.Proofs.Scripts
import QuasarDB.Core.TcpClient
import QuasarDB.Core.Proofs.Framing
import QuasarDB.Core.ThreadPool
import QuasarDB.Core.Proofs.ThreadPool
import QuasarDB.Server.TaskPool
import QuasarDB.Server.Proofs.TaskSteps
import QuasarDB.Server.Proofs.FinishedTasks
import QuasarDB.Server.Proofs.CancelledTasks
import QuasarDB.Server.Proofs.Permissions
import QuasarDB.Server.Monitor
import QuasarDB.Server.Proofs.MonitorRuns
import QuasarDB.Server.Cluster
import QuasarDB.Server.Proofs.Orphans
import QuasarDB.Storage.IndexSet
import QuasarDB.Storage.Page
import QuasarDB.Storage.StringStore
import QuasarDB.Storage.Table
import QuasarDB.Storage.Condition
import QuasarDB.Storage.Executor
import QuasarDB.Storage.Proofs.Indexes
import QuasarDB.Storage.Proofs.Pages
import QuasarDB.Storage.Proofs.TableState
import QuasarDB.Library.Along
import QuasarDB.Storage.Proofs.Growth
import QuasarDB.Storage.Proofs.TableReads
import QuasarDB.Storage.Proofs.RowChanges
import QuasarDB.Storage.Proofs.RowRuns
import QuasarDB.Storage.Proofs.Statements
import QuasarDB.Server.Proofs.LexerPlaces
import QuasarDB.Storage.Proofs.InnerBalance
import QuasarDB.Storage.Proofs.InnerRebalancing
import QuasarDB.Storage.Matching
import QuasarDB.Storage.Proofs.Aggregates
import QuasarDB.Library.Memory
import QuasarDB.Library.StreamCodec
import QuasarDB.Storage.DataPage
import QuasarDB.Storage.Proofs.DataPage
import QuasarDB.Storage.Proofs.Matching
import QuasarDB.Storage.Proofs.NewRecord
import QuasarDB.Storage.Proofs.PageLog
import QuasarDB.Storage.Proofs.SchemaFile
import QuasarDB.Storage.Proofs.StringFile
import QuasarDB.Storage.Proofs.StringIds
import QuasarDB.Storage.Proofs.UnknownColumns
import QuasarDB.Server.Proofs.FailedSaves
import QuasarDB.Storage.Proofs.Acceptance
import QuasarDB.Storage.Proofs.RangeSearch
import QuasarDB.Storage.Proofs.Upsert
import QuasarDB.Storage.Proofs.Constraints
import QuasarDB.Storage.Proofs.FailedRows
import QuasarDB.Storage.Proofs.IndexPlans
import QuasarDB.Server.Proofs.Envelope
import QuasarDB.Server.Proofs.Ports
import QuasarDB.Storage.Proofs.InnerTransfers
import QuasarDB.Library.Base64
import QuasarDB.Library.LastValues
import QuasarDB.Server.Base64Url
import QuasarDB.Server.Proofs.Base64RoundTrip
import QuasarDB.Server.Proofs.ErrorRate
import QuasarDB.Library.Lockstep
import QuasarDB.Storage.Proofs.Restarts
import QuasarDB.Library.Services
import QuasarDB.Storage.Application
import QuasarDB.Storage.Proofs.Canonical
import QuasarDB.Storage.Proofs.Selecting
import QuasarDB.Storage.Proofs.StatementRuns
import QuasarDB.Storage.Proofs.Sessions
import QuasarDB.Server.Proofs.CalmRuns
import QuasarDB.Server.Logger
import QuasarDB.Server.Proofs.LogRuns
import QuasarDB.Client.Application
import QuasarDB.Client.Proofs.ScriptRuns
import QuasarDB.Storage.Proofs.TreeMaps
import QuasarDB.Library.Simulation
import QuasarDB.Storage.Proofs.DataFile
import QuasarDB.Server.Proofs.Deployments
import QuasarDB.Server.Proofs.Desks
