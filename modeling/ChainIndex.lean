import ChainIndex.Chain.Amount
import ChainIndex.Chain.Asset
import ChainIndex.Chain.Block
import ChainIndex.Chain.Holder
import ChainIndex.Chain.Operation
import ChainIndex.Chain.Payload
import ChainIndex.Chain.Receipt
import ChainIndex.Chain.Registration
import ChainIndex.Chain.TokenTransfer
import ChainIndex.Database.Pool
import ChainIndex.Database.Statement
import ChainIndex.Error
import ChainIndex.Json
import ChainIndex.Json.Document
import ChainIndex.Json.Record
import ChainIndex.Json.Text
import ChainIndex.Json.Token
import ChainIndex.Main
import ChainIndex.Malformed
import ChainIndex.Node.Connection
import ChainIndex.Node.Reply
import ChainIndex.Node.Request
import ChainIndex.Node.Rpc
import ChainIndex.Number.Checksum
import ChainIndex.Number.Double
import ChainIndex.Number.FixedPoint
import ChainIndex.Number.Shortest
import ChainIndex.Observer.AccountName
import ChainIndex.Observer.NativeBalance
import ChainIndex.Observer.Pipeline
import ChainIndex.Observer.Standard
import ChainIndex.Observer.Token.Birth
import ChainIndex.Observer.Token.Life
import ChainIndex.Observer.Token.Question
import ChainIndex.Program
import ChainIndex.Proofs.AmountText
import ChainIndex.Proofs.Anatomy
import ChainIndex.Proofs.AssetCaches
import ChainIndex.Proofs.BlockEntries
import ChainIndex.Proofs.Calls
import ChainIndex.Proofs.Checkpoint
import ChainIndex.Proofs.CheckpointSoundness
import ChainIndex.Proofs.Chronicle
import ChainIndex.Proofs.Conduct
import ChainIndex.Proofs.Contents
import ChainIndex.Proofs.CoreEntries
import ChainIndex.Proofs.Course
import ChainIndex.Proofs.DerivedRows
import ChainIndex.Proofs.DocumentText
import ChainIndex.Proofs.Entering
import ChainIndex.Proofs.EntriesMade
import ChainIndex.Proofs.Entry
import ChainIndex.Proofs.EntryOrder
import ChainIndex.Proofs.EntryWrites
import ChainIndex.Proofs.EventPlaces
import ChainIndex.Proofs.ExactColumns
import ChainIndex.Proofs.ExactIndex
import ChainIndex.Proofs.FailedQueries
import ChainIndex.Proofs.Fetches
import ChainIndex.Proofs.FirstOperations
import ChainIndex.Proofs.FoundingRows
import ChainIndex.Proofs.Growth
import ChainIndex.Proofs.GuardedWrites
import ChainIndex.Proofs.HashChain
import ChainIndex.Proofs.History
import ChainIndex.Proofs.HoldingUnits
import ChainIndex.Proofs.Indexing
import ChainIndex.Proofs.IntegerReaders
import ChainIndex.Proofs.Integrity
import ChainIndex.Proofs.Itinerary
import ChainIndex.Proofs.KnownAssets
import ChainIndex.Proofs.LastBalances
import ChainIndex.Proofs.LateCalls
import ChainIndex.Proofs.ListedEntries
import ChainIndex.Proofs.Listing
import ChainIndex.Proofs.LiveAnswers
import ChainIndex.Proofs.Lookups
import ChainIndex.Proofs.LosslessText
import ChainIndex.Proofs.Moments
import ChainIndex.Proofs.Numerals
import ChainIndex.Proofs.Observing
import ChainIndex.Proofs.OperationIds
import ChainIndex.Proofs.OtherHoldings
import ChainIndex.Proofs.Pipeline
import ChainIndex.Proofs.Progress
import ChainIndex.Proofs.Purses
import ChainIndex.Proofs.ReceiptPlaces
import ChainIndex.Proofs.RecordText
import ChainIndex.Proofs.Recording
import ChainIndex.Proofs.Replay
import ChainIndex.Proofs.ReplyRouting
import ChainIndex.Proofs.RequestedNumbers
import ChainIndex.Proofs.Resumption
import ChainIndex.Proofs.Retention
import ChainIndex.Proofs.Rounds
import ChainIndex.Proofs.ScalarText
import ChainIndex.Proofs.Sessions
import ChainIndex.Proofs.SharedStores
import ChainIndex.Proofs.Shutdown
import ChainIndex.Proofs.Stages
import ChainIndex.Proofs.StatementTokens
import ChainIndex.Proofs.Steps
import ChainIndex.Proofs.StoreCalls
import ChainIndex.Proofs.StoreFailures
import ChainIndex.Proofs.StoredReceipts
import ChainIndex.Proofs.StringLiterals
import ChainIndex.Proofs.Surroundings
import ChainIndex.Proofs.TableFounders
import ChainIndex.Proofs.TableIdentifiers
import ChainIndex.Proofs.TableNames
import ChainIndex.Proofs.TokenLife
import ChainIndex.Proofs.TokenRecords
import ChainIndex.Proofs.TokenText
import ChainIndex.Proofs.TokenWrites
import ChainIndex.Proofs.Tolerance
import ChainIndex.Proofs.TracedRows
import ChainIndex.Proofs.TransferHistory
import ChainIndex.Proofs.TransparentCaches
import ChainIndex.Proofs.Turns
import ChainIndex.Proofs.TwoRuns
import ChainIndex.Proofs.UnfitOperations
import ChainIndex.Proofs.Unfolding
import ChainIndex.Proofs.WideRows
import ChainIndex.Proofs.WideTables
import ChainIndex.Proofs.WordArithmetic
import ChainIndex.Scan.Cache
import ChainIndex.Scan.Checkpoint
import ChainIndex.Scan.Conversion
import ChainIndex.Scan.Loop
import ChainIndex.Scan.Procedure
import ChainIndex.Scan.Recording
import ChainIndex.Scan.WideTable
import ChainIndex.Settings
import ChainIndex.Simulation.Database
import ChainIndex.Simulation.Migration
import ChainIndex.Simulation.Node
import ChainIndex.Simulation.Observers
import ChainIndex.Simulation.Server
import ChainIndex.Simulation.World
import ChainIndex.Store.Database
import ChainIndex.Store.Memory
import ChainIndex.Store.Migration
import ChainIndex.Store.Record
import ChainIndex.Store.Request
import ChainIndex.Store.Schema
import ChainIndex.Text.Blank
import ChainIndex.Text.Hidden
import ChainIndex.Text.Integer
import ChainIndex.Text.Quoted
import ChainIndex.Time
