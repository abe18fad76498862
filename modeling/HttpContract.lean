import HttpContract.Interchange.Declarations
import HttpContract.Interchange.Exchange
import HttpContract.Interchange.Plans
import HttpContract.Http.Reading
import HttpContract.Schema.OfType
import HttpContract.Schema.Read
import HttpContract.Http.Request
import HttpContract.Http.RemoteError
import HttpContract.Declaration.Extraction
import HttpContract.Declaration.Forward
import HttpContract.ClientSource
import HttpContract.Contract.Description
import HttpContract.PathTemplate
import HttpContract.Diagnostic
import HttpContract.Candidate
import HttpContract.Value.Encoding
import HttpContract.Value.Display
import HttpContract.Json.Reader
import HttpContract.Json.Writer
import HttpContract.Number.Layout
import HttpContract.Number.Scan
import HttpContract.Text.LetterCase
import HttpContract.Text.Percent
import HttpContract.Text.Punycode
import HttpContract.Text.Quoted
import HttpContract.Files.FileTree
import HttpContract.Toml.Document
import HttpContract.Settings.Generation
import HttpContract.Settings.Transport
import HttpContract.Generation
import HttpContract.CommandLine.Arguments
import HttpContract.CommandLine.Command
import HttpContract.Http.Url
import HttpContract.Http.Sender
import HttpContract.Client.Registry
import HttpContract.Main
import HttpContract.Proofs.Plan.References
import HttpContract.Proofs.Plan.Placeholders
import HttpContract.Proofs.Client.Call
import HttpContract.Proofs.Client.Attributes
import HttpContract.Proofs.Http.Attempts
import HttpContract.Proofs.Http.HeaderNames
import HttpContract.Proofs.Http.Resource
import HttpContract.Proofs.Text.Quoted
import HttpContract.Proofs.Client.Completion
import HttpContract.Proofs.Client.Generation
import HttpContract.Proofs.Client.SourceOutline
import HttpContract.Proofs.Client.SourceTexts
import HttpContract.Proofs.Client.Annotations
import HttpContract.Proofs.Declaration.Linearization
import HttpContract.Proofs.Client.AbstractMembers
import HttpContract.Proofs.Http.Closing
import HttpContract.Proofs.Client.Runs
import HttpContract.Proofs.Client.Failures
import HttpContract.Proofs.Declaration.Texts
import HttpContract.Proofs.Client.Refusals
import HttpContract.Proofs.Client.SourceSteps
import HttpContract.Proofs.Client.Echo
import HttpContract.Proofs.Client.BodyNames
import HttpContract.Proofs.Client.Signatures
import HttpContract.Proofs.Declaration.RenderedTypes
import HttpContract.Proofs.Declaration.Overrides
import HttpContract.Proofs.Http.RequestIds
import HttpContract.Proofs.Http.LiteralQueries
import HttpContract.Proofs.Http.PathForm
import HttpContract.Proofs.Settings.Generation
import HttpContract.Proofs.Client.Writing
import HttpContract.Proofs.Client.Holders
import HttpContract.Proofs.Declaration.Visibility
import HttpContract.Proofs.Client.OutputFiles
import HttpContract.Proofs.CommandLine.Endings
import HttpContract.Proofs.Client.TextBodies
import HttpContract.Proofs.Client.Imports
import HttpContract.Proofs.Client.QuotedLines
