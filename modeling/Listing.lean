import Listing.Base64
import Listing.Border
import Listing.Command.Arguments
import Listing.Command.Run
import Listing.Command.Usage
import Listing.Comment
import Listing.Dict
import Listing.Failure
import Listing.FileTree
import Listing.Grammar.Basic
import Listing.Grammar.Languages
import Listing.Grammar.Table
import Listing.Highlight
import Listing.Json.Basic
import Listing.Json.Reader
import Listing.Line
import Listing.Main
import Listing.Number.Binary64
import Listing.Number.Decimal
import Listing.Outline
import Listing.Page.Basic
import Listing.Page.Markup
import Listing.Page.Segment
import Listing.Page.Stylesheet
import Listing.Path
import Listing.Proofs.Base64
import Listing.Proofs.Border
import Listing.Proofs.Command.Saved
import Listing.Proofs.Comment
import Listing.Proofs.Dict
import Listing.Proofs.FileTree
import Listing.Proofs.Grammar.Table
import Listing.Proofs.Highlight.Boundary
import Listing.Proofs.Highlight.Lossless
import Listing.Proofs.Highlight.Rules
import Listing.Proofs.Highlight.States
import Listing.Proofs.Json.Document
import Listing.Proofs.Markup.Reading
import Listing.Proofs.Markup.Tags
import Listing.Proofs.Number.Decimal
import Listing.Proofs.Page.Borders
import Listing.Proofs.Page.Boundary
import Listing.Proofs.Page.Declarations
import Listing.Proofs.Page.Document
import Listing.Proofs.Page.Numbers
import Listing.Proofs.Page.Segments
import Listing.Proofs.Page.Width
import Listing.Proofs.Path
import Listing.Proofs.Prose.Gaps
import Listing.Proofs.Prose.Lines
import Listing.Proofs.Prose.Paragraphs
import Listing.Proofs.Prose.Respread
import Listing.Proofs.Prose.Runs
import Listing.Proofs.Prose.Stable
import Listing.Proofs.Settings
import Listing.Proofs.Style.Directory
import Listing.Proofs.Style.Encoded
import Listing.Proofs.Style.Layers
import Listing.Proofs.Style.PresetFile
import Listing.Proofs.Style.Registry
import Listing.Proofs.Style.Snapshot
import Listing.Proofs.Style.Validity
import Listing.Proofs.Text.Blank
import Listing.Proofs.Text.Digits
import Listing.Proofs.Text.Lines
import Listing.Proofs.Text.Lowercase
import Listing.Proofs.Text.Tabs
import Listing.Proofs.Text.Words
import Listing.Proofs.Toml.Document
import Listing.Proofs.Toml.Strings
import Listing.Proofs.Wrap.Breaks
import Listing.Proofs.Wrap.Choice
import Listing.Proofs.Wrap.Fragments
import Listing.Proofs.Wrap.Highlighted
import Listing.Proofs.Wrap.Pinched
import Listing.Proofs.Wrap.Ranges
import Listing.Proofs.Wrap.Stable
import Listing.Prose
import Listing.Settings
import Listing.Style.Overrides
import Listing.Style.PresetFile
import Listing.Style.Presets
import Listing.Style.Profile
import Listing.Style.Spec
import Listing.Style.Valid
import Listing.Text.Basic
import Listing.Text.CaseTable
import Listing.Text.Column
import Listing.Text.HiddenTable
import Listing.Text.Lowercase
import Listing.Text.Quoted
import Listing.Text.Ranges
import Listing.Text.Utf8
import Listing.Text.WidthTable
import Listing.Token
import Listing.Toml.Date
import Listing.Toml.Reader
import Listing.Toml.Scalar
import Listing.Wrap
