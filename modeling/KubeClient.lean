import KubeClient.Auth.Credential
import KubeClient.Auth.Helper
import KubeClient.Auth.Provider
import KubeClient.Auth.Refresh
import KubeClient.Auth.Source
import KubeClient.Auth.TokenFile
import KubeClient.Auth.Vault
import KubeClient.Client.Basic
import KubeClient.Client.Configured
import KubeClient.Client.Connect
import KubeClient.Client.Error
import KubeClient.Client.Exchange
import KubeClient.Client.Resource
import KubeClient.Client.Script
import KubeClient.Codec.Error
import KubeClient.Codec.Registry
import KubeClient.Codec.Serializer
import KubeClient.Config.Auth
import KubeClient.Config.Basic
import KubeClient.Config.InCluster
import KubeClient.Document.Cause
import KubeClient.Document.Content
import KubeClient.Document.Documented
import KubeClient.Document.Json.Cursor
import KubeClient.Document.Json.Printer
import KubeClient.Document.Json.Reader
import KubeClient.Document.Json.Scalar
import KubeClient.Document.NameMap
import KubeClient.Document.Shape
import KubeClient.Document.Value
import KubeClient.Document.Yaml.Event
import KubeClient.Document.Yaml.Printer
import KubeClient.Document.Yaml.Reader
import KubeClient.Document.Yaml.Scalar
import KubeClient.Document.Yaml.Stream
import KubeClient.Document.Yaml.Text
import KubeClient.Document.Yaml.Token
import KubeClient.Document.Yaml.Token.Mark
import KubeClient.Document.Yaml.Token.Scalar
import KubeClient.Document.Yaml.Token.Stream
import KubeClient.Exec.Channel
import KubeClient.Exec.Connection
import KubeClient.Exec.Inbound
import KubeClient.Exec.Outbound
import KubeClient.Exec.Output
import KubeClient.Exec.Session
import KubeClient.File.System
import KubeClient.File.Tree
import KubeClient.Http.Percent
import KubeClient.Http.Request
import KubeClient.Http.Response
import KubeClient.Number.Binary64
import KubeClient.Number.FloatText
import KubeClient.Number.Instance
import KubeClient.Number.Shortest
import KubeClient.Object.ConfigMap
import KubeClient.Object.Meta
import KubeClient.Object.Status
import KubeClient.Proofs.Addresses
import KubeClient.Proofs.Calendar
import KubeClient.Proofs.Call
import KubeClient.Proofs.CallingOff
import KubeClient.Proofs.Course
import KubeClient.Proofs.CredentialCache
import KubeClient.Proofs.Deletions
import KubeClient.Proofs.Demultiplexing
import KubeClient.Proofs.Digits
import KubeClient.Proofs.DocumentFields
import KubeClient.Proofs.DurationComponents
import KubeClient.Proofs.DurationGrammar
import KubeClient.Proofs.DurationText
import KubeClient.Proofs.EventLines
import KubeClient.Proofs.HelperCredentials
import KubeClient.Proofs.JsonExtent
import KubeClient.Proofs.JsonLockstep
import KubeClient.Proofs.JsonNumbers
import KubeClient.Proofs.JsonOffsets
import KubeClient.Proofs.JsonPlaces
import KubeClient.Proofs.JsonReading
import KubeClient.Proofs.JsonRecords
import KubeClient.Proofs.JsonRereading
import KubeClient.Proofs.JsonRoundTrip
import KubeClient.Proofs.JsonShapes
import KubeClient.Proofs.JsonSkippedScalars
import KubeClient.Proofs.JsonSkipping
import KubeClient.Proofs.JsonSteppedOver
import KubeClient.Proofs.JsonStrings
import KubeClient.Proofs.JsonText
import KubeClient.Proofs.KeptObjects
import KubeClient.Proofs.KeptValues
import KubeClient.Proofs.Lines
import KubeClient.Proofs.NamedObjects
import KubeClient.Proofs.Numerals
import KubeClient.Proofs.OutboundFrames
import KubeClient.Proofs.OutboundLine
import KubeClient.Proofs.OutboundNotes
import KubeClient.Proofs.Outcomes
import KubeClient.Proofs.OutputReading
import KubeClient.Proofs.PathSegments
import KubeClient.Proofs.PeerLine
import KubeClient.Proofs.QuantityCanonical
import KubeClient.Proofs.QuantityEquality
import KubeClient.Proofs.QuantityLiteral
import KubeClient.Proofs.QuantityOrder
import KubeClient.Proofs.QuantityRendering
import KubeClient.Proofs.QuantityText
import KubeClient.Proofs.QuantityValue
import KubeClient.Proofs.QuantityWords
import KubeClient.Proofs.QueryText
import KubeClient.Proofs.Records
import KubeClient.Proofs.RefreshSharing
import KubeClient.Proofs.RefreshSteps
import KubeClient.Proofs.Refusals
import KubeClient.Proofs.Registrations
import KubeClient.Proofs.SessionReading
import KubeClient.Proofs.SessionRequests
import KubeClient.Proofs.SessionRun
import KubeClient.Proofs.SessionWriting
import KubeClient.Proofs.ShapeDepth
import KubeClient.Proofs.SoleFields
import KubeClient.Proofs.TimestampText
import KubeClient.Proofs.TimestampYears
import KubeClient.Proofs.TreeValues
import KubeClient.Proofs.WatchItems
import KubeClient.Proofs.WatchPolls
import KubeClient.Proofs.WatchRun
import KubeClient.Proofs.WrittenBodies
import KubeClient.Proofs.YamlLockstep
import KubeClient.Proofs.YamlShapes
import KubeClient.Proofs.YamlSteppedOver
import KubeClient.Resource.Basic
import KubeClient.Resource.Options
import KubeClient.Resource.Requests
import KubeClient.Scalar.Date
import KubeClient.Scalar.Duration
import KubeClient.Scalar.Error
import KubeClient.Scalar.IntOrString
import KubeClient.Scalar.Quantity
import KubeClient.Scalar.Timestamp
import KubeClient.Scalar.Token
import KubeClient.Shell.Builtin
import KubeClient.Shell.Condition
import KubeClient.Shell.Expansion
import KubeClient.Shell.Field
import KubeClient.Shell.Filter
import KubeClient.Shell.Fork
import KubeClient.Shell.Format
import KubeClient.Shell.Formula
import KubeClient.Shell.Lookup
import KubeClient.Shell.Pattern
import KubeClient.Shell.Process
import KubeClient.Shell.Program
import KubeClient.Shell.Reader
import KubeClient.Shell.Runner
import KubeClient.Shell.Script
import KubeClient.Shell.Signal
import KubeClient.Shell.State
import KubeClient.Text.Blank
import KubeClient.Text.Codepoint
import KubeClient.Text.FixedPoint
import KubeClient.Text.Inspect
import KubeClient.Text.Numeral
import KubeClient.Text.Utf8
import KubeClient.Watch.Event
import KubeClient.Watch.LineBuffer
import KubeClient.Watch.Stream
