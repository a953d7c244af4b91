import ApiClient.Address.Resolve
import ApiClient.Address.Template
import ApiClient.Body.Request
import ApiClient.Body.Response
import ApiClient.Body.Source
import ApiClient.Client.Basic
import ApiClient.Client.Build
import ApiClient.Client.Draft
import ApiClient.Client.Execute
import ApiClient.Client.Journal
import ApiClient.Client.Reply
import ApiClient.Client.Retrieve
import ApiClient.Client.Status
import ApiClient.Codec.Basic
import ApiClient.Codec.Form
import ApiClient.Codec.Json
import ApiClient.Codec.Registry
import ApiClient.Codec.Text
import ApiClient.Coding.Compressed
import ApiClient.Coding.Inflate
import ApiClient.Cookie
import ApiClient.Engine.Answer
import ApiClient.Engine.Answer.Chunks
import ApiClient.Engine.Network
import ApiClient.Engine.Outcome
import ApiClient.Engine.Plain.Answer
import ApiClient.Engine.Plain.Basic
import ApiClient.Engine.Plain.Exchange
import ApiClient.Engine.Pooled
import ApiClient.Engine.Pooled.Answer
import ApiClient.Engine.Proxy
import ApiClient.Engine.Transfer
import ApiClient.Engine.Transfer.Answer
import ApiClient.Engine.Transfer.Target
import ApiClient.Entries
import ApiClient.Error.Client
import ApiClient.Error.Engine
import ApiClient.Error.Transport
import ApiClient.Form.Multipart
import ApiClient.Form.Part
import ApiClient.Form.UrlEncoded
import ApiClient.Http.Date
import ApiClient.Http.Header
import ApiClient.Http.MediaType
import ApiClient.Http.Method
import ApiClient.Http.Status
import ApiClient.Http.Uri
import ApiClient.Json.Basic
import ApiClient.Json.Printer
import ApiClient.Json.Reader
import ApiClient.Json.Shape
import ApiClient.Message.Extensions
import ApiClient.Message.Request
import ApiClient.Message.Response
import ApiClient.Number.Double
import ApiClient.Report.Basic
import ApiClient.Report.Error
import ApiClient.Report.Message
import ApiClient.Text.Base64
import ApiClient.Text.Blank
import ApiClient.Text.Bytes
import ApiClient.Text.Percent
import ApiClient.Text.Pieces
import ApiClient.Text.Quoted
import ApiClient.Text.Utf8
import ApiClient.Unicode.Canonical
import ApiClient.Unicode.Category
import ApiClient.Unicode.Direction
import ApiClient.Unicode.Joining
import ApiClient.Unicode.Normal
import ApiClient.Unicode.Table
import ApiClient.Url.Basic
import ApiClient.Url.Component
import ApiClient.Url.Domain
import ApiClient.Url.Domain.Mapping
import ApiClient.Url.Host
import ApiClient.Url.Join
import ApiClient.Url.Parser
import ApiClient.Url.Path
import ApiClient.Url.Punycode
import ApiClient.Proofs.Chain
import ApiClient.Proofs.StatusPolicy
import ApiClient.Proofs.Stages
import ApiClient.Proofs.AsciiText
import ApiClient.Proofs.MultipartReader
import ApiClient.Proofs.MultipartForm
import ApiClient.Proofs.HeaderComposition
import ApiClient.Proofs.TransportCalls
import ApiClient.Proofs.BufferedReading
import ApiClient.Proofs.EngineHeaders
import ApiClient.Proofs.PassingOn
import ApiClient.Proofs.TemplateGrammar
import ApiClient.Proofs.UriReading
import ApiClient.Proofs.WebUrl
import ApiClient.Proofs.RelativeTargets
import ApiClient.Proofs.StreamReading
import ApiClient.Proofs.ReplyReading
import ApiClient.Proofs.EngineFrame
import ApiClient.Proofs.DraftResidue
import ApiClient.Proofs.Utf8Text
import ApiClient.Proofs.QuotedText
import ApiClient.Proofs.Rounding
import ApiClient.Proofs.ShortestDecimal
import ApiClient.Proofs.JsonNumbers
import ApiClient.Proofs.Rereading
import ApiClient.Proofs.JsonRoundTrip
import ApiClient.Proofs.CodecRegistry
import ApiClient.Proofs.PartDisposition
import ApiClient.Proofs.ReadSchedule
import ApiClient.Proofs.FormDelivery
import ApiClient.Proofs.FormSize
import ApiClient.Proofs.EncodedText
import ApiClient.Proofs.ExpansionDecoding
import ApiClient.Proofs.TemplateVariables
import ApiClient.Proofs.GivenUrls
import ApiClient.Proofs.FormGrouping
import ApiClient.Proofs.FormRoundTrip
import ApiClient.Proofs.AbsoluteAddresses
import ApiClient.Proofs.PrintedValues
import ApiClient.Proofs.JsonViews
import ApiClient.Proofs.CookieSets
import ApiClient.Proofs.CookieHeader
import ApiClient.Proofs.JsonGrammar
import ApiClient.Proofs.JsonLoops
import ApiClient.Proofs.NumeralReading
import ApiClient.Proofs.QuotedReading
import ApiClient.Proofs.JsonDocuments
import ApiClient.Proofs.BodyDecoding
import ApiClient.Proofs.PartialReading
import ApiClient.Proofs.Buffering
import ApiClient.Proofs.StatusMessages
import ApiClient.Proofs.DeferredHeaders
