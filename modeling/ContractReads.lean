import ContractReads.Abi.Coerce
import ContractReads.Abi.Convert
import ContractReads.Abi.Decode
import ContractReads.Abi.Encode
import ContractReads.Abi.Interface
import ContractReads.Abi.InterfaceText
import ContractReads.Abi.Type
import ContractReads.Abi.TypeName
import ContractReads.Abi.Value
import ContractReads.Address
import ContractReads.Batch.Basic
import ContractReads.Batch.Call
import ContractReads.Batch.Execute
import ContractReads.Batch.Slots
import ContractReads.Bytes
import ContractReads.Contract.Basic
import ContractReads.Contract.Event
import ContractReads.Contract.Known
import ContractReads.Contract.Registry
import ContractReads.Contract.Setting
import ContractReads.Contract.Storage
import ContractReads.Decimal.Fixed
import ContractReads.Decimal.Shortest
import ContractReads.Diagnostics
import ContractReads.Diagnostics.Directive
import ContractReads.Diagnostics.Pattern
import ContractReads.Endpoint.Basic
import ContractReads.Endpoint.Memory
import ContractReads.Endpoint.Multicall
import ContractReads.Endpoint.Perturbed
import ContractReads.Engine.Basic
import ContractReads.Engine.Config
import ContractReads.Error
import ContractReads.Http.Client
import ContractReads.Http.Config
import ContractReads.Http.Matching
import ContractReads.Json.Basic
import ContractReads.Json.Printer
import ContractReads.Json.Reader
import ContractReads.Json.Record
import ContractReads.Json.Token
import ContractReads.Keccak
import ContractReads.Log.Basic
import ContractReads.Log.Memory
import ContractReads.Log.Raw
import ContractReads.Log.Request
import ContractReads.Log.Scan
import ContractReads.Oracle.Config
import ContractReads.Oracle.Dao
import ContractReads.Oracle.Fit
import ContractReads.Oracle.Participation
import ContractReads.Oracle.Submission
import ContractReads.Oracle.Window
import ContractReads.Rpc.BlockTag
import ContractReads.Rpc.Envelope
import ContractReads.Rpc.Payload
import ContractReads.Rpc.Quantity
import ContractReads.Rpc.Script
import ContractReads.Rpc.Transport
import ContractReads.Scheduler.Basic
import ContractReads.Scheduler.Run
import ContractReads.Scheduler.Timeline
import ContractReads.ShardPlan
import ContractReads.Text.Classes
import ContractReads.Text.Digits
import ContractReads.Text.Fields
import ContractReads.Text.Hex
import ContractReads.Text.Printable
import ContractReads.Text.Quoted
import ContractReads.Text.Utf8
import ContractReads.Proofs.BatchExecution
import ContractReads.Proofs.Interleaving
import ContractReads.Proofs.ShardPartition
import ContractReads.Proofs.ShardRanges
import ContractReads.Proofs.ShardCompletion
import ContractReads.Proofs.RunInvariant
import ContractReads.Proofs.FailurePolicies
import ContractReads.Proofs.TimelineInterleaving
import ContractReads.Proofs.ShardedQuery
import ContractReads.Proofs.ShardTraffic
import ContractReads.Proofs.WordCodec
import ContractReads.Proofs.TextCodec
import ContractReads.Proofs.AbiLayout
import ContractReads.Proofs.AbiRoundTrip
import ContractReads.Proofs.CallEncoding
import ContractReads.Proofs.BundledCalls
import ContractReads.Proofs.ServedQueries
import ContractReads.Proofs.LogScans
import ContractReads.Proofs.MembershipChanges
import ContractReads.Proofs.SubmissionRows
import ContractReads.Proofs.ChainReads
import ContractReads.Proofs.CalculatedParticipation
import ContractReads.Proofs.CalculatorSettings
import ContractReads.Proofs.BatchLimits
import ContractReads.Proofs.PermitBounds
import ContractReads.Proofs.ScanRanges
import ContractReads.Proofs.FlexibleReads
import ContractReads.Proofs.BuiltRegistries
import ContractReads.Proofs.Coercion
import ContractReads.Proofs.DeclaredShapes
import ContractReads.Proofs.DecodedShapes
import ContractReads.Proofs.ActionEvents
import ContractReads.Proofs.WindowIndices
import ContractReads.Proofs.LookbackBounds
import ContractReads.Proofs.EventFields
import ContractReads.Proofs.LatestSubmitters
import ContractReads.Proofs.MatchedResponses
import ContractReads.Proofs.EventRoundTrip
import ContractReads.Proofs.SettingChanges
import ContractReads.Proofs.HexTexts
import ContractReads.Proofs.NodeLogs
import ContractReads.Proofs.LogRequests
import ContractReads.Proofs.ShortestQuantities
import ContractReads.Proofs.FilterBuilding
import ContractReads.Proofs.HealthHistory
import ContractReads.Proofs.RefusedReads
import ContractReads.Proofs.Registrations
import ContractReads.Proofs.QueryFailures
import ContractReads.Proofs.FilledSlots
import ContractReads.Proofs.MissingValues
import ContractReads.Proofs.WireForms
