import TableStore.Main
import TableStore.Proofs.Stateful
import TableStore.Storage.Memory
import TableStore.Storage.Watched
import TableStore.Proofs.Cycle
import TableStore.Proofs.Run
import TableStore.Proofs.Execution
import TableStore.Proofs.WatchedMemory
import TableStore.Proofs.Simulation
import TableStore.Proofs.CacheCoherence
import TableStore.Proofs.CacheTransparency
import TableStore.Proofs.Records
import TableStore.Proofs.TypedRows
import TableStore.Proofs.Decimal
import TableStore.Proofs.Json.Escape
import TableStore.Proofs.Json.Lexeme
import TableStore.Proofs.Json.Nested
import TableStore.Proofs.Json.RoundTrip
import TableStore.Proofs.Files.Calls
import TableStore.Proofs.Files.Mirror
import TableStore.Proofs.Files.Refinement
import TableStore.Proofs.TableCommands
import TableStore.Proofs.Files.Writes
import TableStore.Proofs.HalfDone
import TableStore.Proofs.StaleResults
import TableStore.Proofs.FaultlessRun
import TableStore.Proofs.Independence
import TableStore.Proofs.Statement.Grammar
import TableStore.Proofs.Files.Places
import TableStore.Proofs.Files.Directories
import TableStore.Proofs.Files.Commands
import TableStore.Proofs.Files.RowPlaces
import TableStore.Proofs.Files.Containment
import TableStore.Proofs.Files.Apart
import TableStore.Proofs.Files.Frames
import TableStore.Proofs.Keys
import TableStore.Proofs.KeyRuns
import TableStore.Proofs.Scans
import TableStore.Proofs.CallLog
import TableStore.Proofs.StepEffects
import TableStore.Proofs.Shell
import TableStore.Proofs.FixedAnswers
import TableStore.Proofs.Statement.Scanning
import TableStore.Proofs.Statement.Spelling
import TableStore.Proofs.Files.StoredTexts
import TableStore.Proofs.NewTables
import TableStore.Proofs.Files.NewTables
import TableStore.Proofs.Conversation
import TableStore.Execution.InPlace
import TableStore.Proofs.InPlace
import TableStore.Proofs.Matching
import TableStore.Proofs.StatementEffects
import TableStore.Proofs.ByteOrder
import TableStore.Proofs.Verdicts
import TableStore.Proofs.Merging
import TableStore.Proofs.Declaration
import TableStore.Proofs.CreateTable
import TableStore.Proofs.ReadBack
import TableStore.Proofs.Statement.Layout
import TableStore.Proofs.Literal
import TableStore.Proofs.Text.Quoted
import TableStore.Proofs.Grid.Shape
import TableStore.Proofs.Grid.Recovery
import TableStore.Proofs.Registry
import TableStore.Proofs.Redeclaration
import TableStore.Proofs.Statement.Unquoting
