import ImageLint.Analysis
import ImageLint.Association
import ImageLint.Attribute.Keyword
import ImageLint.Attribute.Rules
import ImageLint.Attribute.Value
import ImageLint.Command.Arguments
import ImageLint.Command.Lint
import ImageLint.Command.Lookup
import ImageLint.Command.Program
import ImageLint.Command.Settings
import ImageLint.Config
import ImageLint.Decimal.Shortest
import ImageLint.Diagnostic
import ImageLint.Directory
import ImageLint.Document.Decoder
import ImageLint.Document.Encoder
import ImageLint.Duplicate
import ImageLint.Host.Change
import ImageLint.Host.FileSystem
import ImageLint.Host.Path
import ImageLint.Json.Mismatch
import ImageLint.Json.Number
import ImageLint.Json.Printer
import ImageLint.Json.Quoted
import ImageLint.Json.Record
import ImageLint.Json.Token
import ImageLint.Json.Tree
import ImageLint.Json.Value
import ImageLint.Log
import ImageLint.Main
import ImageLint.Model.Basic
import ImageLint.Model.Draft
import ImageLint.Model.Node
import ImageLint.Proofs.Loader.History
import ImageLint.Proofs.Loader.Journal
import ImageLint.Proofs.Loader.Ownership
import ImageLint.Proofs.Loader.Race
import ImageLint.Proofs.Loader.Run
import ImageLint.Proofs.Loader.Step
import ImageLint.Proofs.Validation.SharedLoader
import ImageLint.Report.Compact
import ImageLint.Report.Format
import ImageLint.Report.Json
import ImageLint.Report.Stylish
import ImageLint.Report.Totals
import ImageLint.Rule
import ImageLint.Session
import ImageLint.Suggestion.EditDistance
import ImageLint.Suggestion.Nearest
import ImageLint.Text.Blank
import ImageLint.Text.Case
import ImageLint.Text.Case.Data
import ImageLint.Text.Digit
import ImageLint.Text.Pieces
import ImageLint.Text.Shown
import ImageLint.Text.Shown.Data
import ImageLint.Text.Styled
import ImageLint.Validation
import ImageLint.Validator.Artifact
import ImageLint.Validator.Bundled
import ImageLint.Validator.Check
import ImageLint.Validator.Dispatch
import ImageLint.Validator.Guards
import ImageLint.Validator.Loader
import ImageLint.Validator.Opener
import ImageLint.Validator.Provider
import ImageLint.Validator.Script
import ImageLint.Variable.Reference
import ImageLint.Variable.Unresolved
import ImageLint.Yaml.Config
import ImageLint.Yaml.Cursor
import ImageLint.Yaml.Node
import ImageLint.Yaml.Scalar
import ImageLint.Yaml.Token
import ImageLint.Proofs.Validation.ActivePath
import ImageLint.Proofs.Validation.Overlap
import ImageLint.Proofs.Model.Walk
import ImageLint.Proofs.Validation.Dispatch
import ImageLint.Proofs.Analysis.Contribution
import ImageLint.Proofs.Model.Replacement
import ImageLint.Proofs.Variable.Coverage
import ImageLint.Proofs.Variable.Residue
import ImageLint.Proofs.Variable.Segmentation
import ImageLint.Proofs.Analysis.ShortCircuit
import ImageLint.Proofs.Duplicate.Groups
import ImageLint.Proofs.Directory.Suggestion
import ImageLint.Proofs.Json.Reading
import ImageLint.Proofs.Json.Respelling
import ImageLint.Proofs.Json.Record
import ImageLint.Proofs.Document.RoundTrip
import ImageLint.Proofs.Host.Change
import ImageLint.Proofs.Directory.Guard
import ImageLint.Proofs.Report.Json
import ImageLint.Proofs.Report.Tally
import ImageLint.Proofs.Text.Lines
import ImageLint.Proofs.Report.Lines
import ImageLint.Proofs.Command.Documents
import ImageLint.Proofs.Command.Counts
import ImageLint.Proofs.Command.Composition
import ImageLint.Proofs.Command.Failure
import ImageLint.Proofs.Command.Attribution
import ImageLint.Proofs.Attribute.Permissions
import ImageLint.Proofs.Attribute.Registry
import ImageLint.Proofs.Duplicate.Findings
import ImageLint.Proofs.Suggestion.Ranking
import ImageLint.Proofs.Text.Bytes
import ImageLint.Proofs.Host.Resolution
import ImageLint.Proofs.Directory.Listing
import ImageLint.Proofs.Attribute.Ids
import ImageLint.Proofs.Suggestion.Edits
import ImageLint.Proofs.Suggestion.EditDistance
import ImageLint.Proofs.Suggestion.Nearest
import ImageLint.Proofs.Host.Normalization
import ImageLint.Proofs.Loader.Keys
import ImageLint.Proofs.Command.Decoration
import ImageLint.Proofs.Report.Recovery
import ImageLint.Proofs.Analysis.Strictness
import ImageLint.Proofs.Command.Variables
import ImageLint.Proofs.Model.Draft
import ImageLint.Proofs.Model.Preorder
import ImageLint.Proofs.Model.Traversal
import ImageLint.Proofs.Validation.Typed
