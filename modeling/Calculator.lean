import Calculator.Arithmetic
import Calculator.Binary64.Basic
import Calculator.Binary64.Circular
import Calculator.Binary64.Exponential
import Calculator.Binary64.Order
import Calculator.Binary64.Root
import Calculator.Binary64.Rounding
import Calculator.Binary64.Series
import Calculator.Binary64.Settle
import Calculator.Choice
import Calculator.Decimal.Basic
import Calculator.Decimal.Layout
import Calculator.Decimal.Nearest
import Calculator.Decimal.Shortest
import Calculator.Digest.Algorithm
import Calculator.Digest.Blake2b
import Calculator.Digest.Crc32
import Calculator.Digest.Md5
import Calculator.Digest.Sha1
import Calculator.Digest.Sha2
import Calculator.Digest.Sha3
import Calculator.Digest.Words
import Calculator.Elementary
import Calculator.Encoding.Base64
import Calculator.Encoding.Hex
import Calculator.Failure
import Calculator.FileTree.Basic
import Calculator.FileTree.Change
import Calculator.FileTree.Policy
import Calculator.FileTree.Resolve
import Calculator.Hashing.Expected
import Calculator.Hashing.Outcome
import Calculator.Hashing.Source
import Calculator.Json.Basic
import Calculator.Json.Data
import Calculator.Json.Fault
import Calculator.Json.Reader
import Calculator.Json.Record
import Calculator.Json.Shape
import Calculator.Json.Sink
import Calculator.Json.Skip
import Calculator.Json.Token
import Calculator.Json.Writer
import Calculator.Normalization
import Calculator.Report.Basic
import Calculator.Report.Document
import Calculator.Report.Format
import Calculator.Report.Markdown
import Calculator.Report.Render
import Calculator.Request.AdvancedMath
import Calculator.Request.Arithmetic
import Calculator.Request.BatchHash
import Calculator.Request.Conversion
import Calculator.Request.Field
import Calculator.Request.Hash
import Calculator.Request.Statistics
import Calculator.Request.Trigonometry
import Calculator.Rpc.Incoming
import Calculator.Rpc.Message
import Calculator.Rpc.Params
import Calculator.Server.Failure
import Calculator.Server.Info
import Calculator.Server.MediaType
import Calculator.Server.Session
import Calculator.Server.Stream
import Calculator.Server.Web
import Calculator.Settings.Basic
import Calculator.Settings.Document
import Calculator.Settings.Environment
import Calculator.Settings.Reader
import Calculator.Statistics
import Calculator.Text.Blank
import Calculator.Text.CaseTable
import Calculator.Text.Casing
import Calculator.Text.HiddenTable
import Calculator.Text.Quoted
import Calculator.Text.Split
import Calculator.Text.Utf8
import Calculator.Tool.Basic
import Calculator.Tool.Call
import Calculator.Tool.Choices
import Calculator.Tool.Parameter
import Calculator.Trigonometry
import Calculator.Units.Conversion
import Calculator.Units.Family
import Calculator.Units.Rule
import Calculator.Proofs.FileTree.Resolution
import Calculator.Proofs.Hashing.Containment
import Calculator.Proofs.Binary64.Nearest
import Calculator.Proofs.Decimal.ReadBack
import Calculator.Proofs.Json.Members
import Calculator.Proofs.Json.Value
import Calculator.Proofs.Text.Utf8
import Calculator.Proofs.Json.Numeral
import Calculator.Proofs.Json.Rendering
import Calculator.Proofs.Json.Scientific
import Calculator.Proofs.Json.Number
import Calculator.Proofs.Json.RoundTrip
import Calculator.Proofs.Normalization.Json
import Calculator.Proofs.Hashing.Naming
import Calculator.Proofs.Request.Batch
import Calculator.Proofs.Encoding.Hex
import Calculator.Proofs.Hashing.Expected
import Calculator.Proofs.Tool.Answer
import Calculator.Proofs.Tool.Result
import Calculator.Proofs.Request.Comparison
import Calculator.Proofs.Encoding.Base64
import Calculator.Proofs.FileTree.Opening
import Calculator.Proofs.Hashing.Encodings
import Calculator.Proofs.Binary64.Operations
import Calculator.Proofs.Binary64.Moderate
import Calculator.Proofs.Report.Complete
import Calculator.Proofs.Request.Numbers
import Calculator.Proofs.Trigonometry
import Calculator.Proofs.Statistics
import Calculator.Proofs.Tool.Complete
import Calculator.Proofs.Server.Response
import Calculator.Proofs.Rpc.Incoming
import Calculator.Proofs.Server.Session
import Calculator.Proofs.Server.MediaType
import Calculator.Proofs.Server.Stream
import Calculator.Proofs.Server.Web
import Calculator.Proofs.Json.Layout
import Calculator.Proofs.Report.Document
import Calculator.Proofs.Report.Markdown
import Calculator.Proofs.Tool.Document
import Calculator.Proofs.Tool.Format
import Calculator.Proofs.Normalization.Runs
import Calculator.Proofs.Normalization.Lines
import Calculator.Proofs.Normalization.Text
import Calculator.Proofs.Json.Canonical
import Calculator.Proofs.Json.Visible
import Calculator.Proofs.Text.Order
import Calculator.Proofs.Normalization.Canonical
import Calculator.Proofs.Request.Check
import Calculator.Proofs.Tool.Check
import Calculator.Proofs.Encoding.Accepted
import Calculator.Proofs.Hashing.Decoding
import Calculator.Proofs.FileTree.Permission
import Calculator.Proofs.FileTree.Links
import Calculator.Proofs.Hashing.Links
import Calculator.Proofs.Statistics.Summary
import Calculator.Proofs.Statistics.Mode
import Calculator.Proofs.Statistics.Ranks
import Calculator.Proofs.Units.Conversion
import Calculator.Proofs.Elementary.Round
import Calculator.Proofs.Text.Casing
import Calculator.Proofs.Settings.Environment
import Calculator.Proofs.Settings.Transport
import Calculator.Proofs.Json.Rest
import Calculator.Proofs.Json.RecordRest
import Calculator.Proofs.Json.RecordPlaces
import Calculator.Proofs.Json.Agreement
import Calculator.Proofs.Settings.RpcPath
import Calculator.Proofs.Report.Skeleton
import Calculator.Proofs.Report.Marks
import Calculator.Proofs.Tool.Echo
import Calculator.Proofs.Binary64.Series
import Calculator.Proofs.Binary64.HalfPi
import Calculator.Proofs.Binary64.Angle
import Calculator.Proofs.Binary64.Settled
import Calculator.Proofs.Trigonometry.Poles
import Calculator.Proofs.Json.RecordRendering
import Calculator.Proofs.Settings.Document
import Calculator.Proofs.Settings.Variables
import Calculator.Proofs.Json.FloatText
import Calculator.Proofs.Text.Chunks
