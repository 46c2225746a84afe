import CaseGateway.Config
import CaseGateway.Dictionary
import CaseGateway.Engine.Command
import CaseGateway.Engine.Recorder
import CaseGateway.Engine.Request
import CaseGateway.Engine.Selection
import CaseGateway.Engine.Store
import CaseGateway.Engine.StoreEngine
import CaseGateway.Failure
import CaseGateway.Http.Collections
import CaseGateway.Http.Exchange
import CaseGateway.Http.Executions
import CaseGateway.Http.Input
import CaseGateway.Http.MediaType
import CaseGateway.Http.Message
import CaseGateway.Http.Multipart
import CaseGateway.Http.Route
import CaseGateway.Http.Server
import CaseGateway.Http.View
import CaseGateway.Json.Basic
import CaseGateway.Json.Numeral
import CaseGateway.Json.Printer
import CaseGateway.Json.Reader
import CaseGateway.Lifecycle
import CaseGateway.Number.Decimal
import CaseGateway.Number.Double
import CaseGateway.Number.Rounding
import CaseGateway.Number.Shortest
import CaseGateway.Number.Sized
import CaseGateway.Proofs.Dictionary
import CaseGateway.Proofs.Http.Effect
import CaseGateway.Proofs.Outcome
import CaseGateway.Proofs.Store.Commands
import CaseGateway.Proofs.Store.VariableMap
import CaseGateway.Query.Call
import CaseGateway.Query.Parameter
import CaseGateway.Query.Parameters
import CaseGateway.Query.Sorting
import CaseGateway.Query.Spec
import CaseGateway.Query.Wording
import CaseGateway.Resource.CleanableReport
import CaseGateway.Resource.HistoricVariable
import CaseGateway.Resource.IdentityLink
import CaseGateway.Resource.VariableInstance
import CaseGateway.Text.Ascii
import CaseGateway.Text.Base64
import CaseGateway.Text.Blank
import CaseGateway.Text.Charset
import CaseGateway.Text.Like
import CaseGateway.Text.Percent
import CaseGateway.Text.Pieces
import CaseGateway.Text.Utf8
import CaseGateway.Timestamp.Basic
import CaseGateway.Timestamp.Text
import CaseGateway.Value.Basic
import CaseGateway.Value.Decode
import CaseGateway.Value.Encode
import CaseGateway.Value.Error
import CaseGateway.Value.Format
import CaseGateway.Value.Type
import CaseGateway.Value.Wire
import CaseGateway.Proofs.Store.LastChange
import CaseGateway.Proofs.Http.ReadYourWrites
import CaseGateway.Proofs.Text.Digits
import CaseGateway.Proofs.Timestamp.RoundTrip
import CaseGateway.Proofs.Text.Base64
import CaseGateway.Proofs.Value.RoundTrip
import CaseGateway.Proofs.Store.Reachable
import CaseGateway.Proofs.Query.Protocol
import CaseGateway.Proofs.Text.Like
import CaseGateway.Proofs.Timestamp.Order
import CaseGateway.Proofs.Store.Selection
import CaseGateway.Proofs.Store.Listing
import CaseGateway.Proofs.Number.Text
import CaseGateway.Proofs.Query.Forms
import CaseGateway.Proofs.Http.Discretion
import CaseGateway.Proofs.Http.Handlers
import CaseGateway.Proofs.Http.Readers
import CaseGateway.Proofs.Lifecycle
import CaseGateway.Proofs.Http.Runs
import CaseGateway.Proofs.Store.Endings
import CaseGateway.Proofs.Engine.Journal
import CaseGateway.Proofs.Http.FailureReports
import CaseGateway.Proofs.Http.Dictation
import CaseGateway.Proofs.Store.Independence
import CaseGateway.Proofs.Store.Roots
import CaseGateway.Proofs.Http.Deletion
import CaseGateway.Proofs.Http.Downloads
import CaseGateway.Proofs.Text.Utf8
import CaseGateway.Proofs.Store.Sorting
import CaseGateway.Proofs.Store.Paging
import CaseGateway.Proofs.Text.Percent
import CaseGateway.Proofs.Http.SingleRows
import CaseGateway.Proofs.Store.Misuse
import CaseGateway.Proofs.Value.LeapSeconds
import CaseGateway.Proofs.Timestamp.Calendar
import CaseGateway.Proofs.Timestamp.Zones
import CaseGateway.Proofs.Number.Rounding
import CaseGateway.Proofs.Number.Shortest
import CaseGateway.Proofs.Number.Layout
import CaseGateway.Proofs.Value.Numerals
import CaseGateway.Proofs.Json.Numerals
import CaseGateway.Proofs.Json.Documents
import CaseGateway.Proofs.Value.Inference
import CaseGateway.Proofs.Value.Objects
import CaseGateway.Proofs.Value.Uploads
import CaseGateway.Proofs.Value.Types
import CaseGateway.Proofs.Value.Formats
import CaseGateway.Proofs.Text.Case
import CaseGateway.Proofs.Value.Rendering
import CaseGateway.Proofs.Query.Pairs
import CaseGateway.Proofs.Http.Listings
import CaseGateway.Proofs.Http.ValueFilter
import CaseGateway.Proofs.Http.LinkTimes
import CaseGateway.Proofs.Value.ByteTexts
import CaseGateway.Proofs.Query.Repeats
import CaseGateway.Proofs.Store.Frame
import CaseGateway.Proofs.Http.Retries
import CaseGateway.Proofs.Value.Options
import CaseGateway.Proofs.Query.SortKeys
import CaseGateway.Proofs.Query.Meaning
import CaseGateway.Proofs.Http.Contents
