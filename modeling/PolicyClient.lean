import PolicyClient.Api.Compilation
import PolicyClient.Api.Data
import PolicyClient.Api.Policies
import PolicyClient.Api.Queries
import PolicyClient.Body.Basic
import PolicyClient.Body.Converter
import PolicyClient.Body.Registry
import PolicyClient.Charset.Codec
import PolicyClient.Charset.Label
import PolicyClient.Charset.Table
import PolicyClient.Client.Basic
import PolicyClient.Client.Call
import PolicyClient.Client.Error
import PolicyClient.CommandLine.Arguments
import PolicyClient.CommandLine.Grammar
import PolicyClient.CommandLine.Run
import PolicyClient.Decimal
import PolicyClient.Decimal.Double
import PolicyClient.Decimal.Power
import PolicyClient.Document.Basic
import PolicyClient.Document.Fault
import PolicyClient.Document.Form
import PolicyClient.Document.Numeral
import PolicyClient.Document.Printer
import PolicyClient.Document.Reader
import PolicyClient.Document.Rebuild
import PolicyClient.Document.Scan
import PolicyClient.Evaluation.Comparison
import PolicyClient.Evaluation.Decision
import PolicyClient.Evaluation.Resolve
import PolicyClient.Evaluation.Search
import PolicyClient.Http.Draft
import PolicyClient.Http.Headers
import PolicyClient.Http.Message
import PolicyClient.Logging.Event
import PolicyClient.Logging.Specification
import PolicyClient.Main
import PolicyClient.MediaType.Basic
import PolicyClient.MediaType.Quality
import PolicyClient.Query.Basic
import PolicyClient.Query.Bindings
import PolicyClient.Query.Residue
import PolicyClient.Query.Wire
import PolicyClient.Settings.Basic
import PolicyClient.Settings.Validation
import PolicyClient.Term.Basic
import PolicyClient.Term.Render
import PolicyClient.Term.Variables
import PolicyClient.Term.Wire
import PolicyClient.Text.Blank
import PolicyClient.Text.Digits
import PolicyClient.Text.Literal
import PolicyClient.Text.Printable
import PolicyClient.Text.Quoted
import PolicyClient.Text.Utf8
import PolicyClient.Url.Address
import PolicyClient.Url.Basic
import PolicyClient.Url.Percent
import PolicyClient.Yaml.Basic
import PolicyClient.Yaml.Cursor
import PolicyClient.Yaml.Reader
import PolicyClient.Yaml.Scalar
import PolicyClient.Yaml.Token
import PolicyClient.Proofs.Fallible
import PolicyClient.Proofs.Decimal.Digits
import PolicyClient.Proofs.Evaluation.Extension
import PolicyClient.Proofs.Evaluation.Search
import PolicyClient.Proofs.Decimal.Reading
import PolicyClient.Proofs.Decimal.Value
import PolicyClient.Proofs.Evaluation.Failure
import PolicyClient.Proofs.Decimal.Text
import PolicyClient.Proofs.Term.Number
import PolicyClient.Proofs.Term.Settled
import PolicyClient.Proofs.Term.RoundTrip
import PolicyClient.Proofs.Query.RoundTrip
import PolicyClient.Proofs.Evaluation.Unbound
import PolicyClient.Proofs.Evaluation.Agreement
import PolicyClient.Proofs.Evaluation.Literal
import PolicyClient.Proofs.Query.Grammar
import PolicyClient.Proofs.Query.Site
import PolicyClient.Proofs.Query.Strict
import PolicyClient.Proofs.Text.Blank
import PolicyClient.Proofs.Text.Letter
import PolicyClient.Proofs.Text.Quoted
import PolicyClient.Proofs.Text.Utf8
import PolicyClient.Proofs.MediaType.WellFormed
import PolicyClient.Proofs.MediaType.RoundTrip
import PolicyClient.Proofs.Charset.Codec
import PolicyClient.Proofs.Document.Text
import PolicyClient.Proofs.Body.RoundTrip
import PolicyClient.Proofs.Client.Charset
import PolicyClient.Proofs.Text.Digits
import PolicyClient.Proofs.Url.Address
import PolicyClient.Proofs.Url.Percent
import PolicyClient.Proofs.Url.Host
import PolicyClient.Proofs.Url.Authority
import PolicyClient.Proofs.Client.Server
import PolicyClient.Proofs.Url.Path
import PolicyClient.Proofs.Url.Tail
import PolicyClient.Proofs.Client.Endpoint
import PolicyClient.Proofs.Client.PolicyUrl
import PolicyClient.Proofs.Http.Headers
import PolicyClient.Proofs.Http.Draft
import PolicyClient.Proofs.Client.Session
import PolicyClient.Proofs.Client.Headers
import PolicyClient.Proofs.Evaluation.Decision
import PolicyClient.Proofs.MediaType.HeaderList
import PolicyClient.Proofs.Evaluation.Near
import PolicyClient.Proofs.Evaluation.Respelled
import PolicyClient.Proofs.Evaluation.Operators
import PolicyClient.Proofs.Evaluation.Membership
import PolicyClient.Proofs.Evaluation.Sequence
import PolicyClient.Proofs.Evaluation.Renaming
import PolicyClient.Proofs.Document.Keyed
import PolicyClient.Proofs.Evaluation.Equality
import PolicyClient.Proofs.Query.Names
import PolicyClient.Proofs.Decimal.Double
import PolicyClient.Proofs.MediaType.Parameters
import PolicyClient.Proofs.MediaType.Invariant
import PolicyClient.Proofs.MediaType.Inclusion
import PolicyClient.Proofs.Body.Support
import PolicyClient.Proofs.Body.Selection
import PolicyClient.Proofs.Body.Shape
import PolicyClient.Proofs.Evaluation.Depth
import PolicyClient.Proofs.CommandLine.Override
import PolicyClient.Proofs.Document.Spaced
import PolicyClient.Proofs.Document.Rebuild
import PolicyClient.Proofs.Client.Storage
import PolicyClient.Proofs.Text.WellFormed
import PolicyClient.Proofs.Document.Lexical
import PolicyClient.Proofs.Body.Malformed
import PolicyClient.Proofs.Text.Slice
import PolicyClient.Proofs.Text.Cuts
import PolicyClient.Proofs.Decimal.Words
