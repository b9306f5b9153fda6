import DocAudit.Audit
import DocAudit.Command.Arguments
import DocAudit.Command.Flag
import DocAudit.Command.Run
import DocAudit.Decimal.Shortest
import DocAudit.Declaration.Basic
import DocAudit.Declaration.Header
import DocAudit.Declaration.Outline
import DocAudit.Declaration.Recognizer
import DocAudit.Documentation.Bullet
import DocAudit.Documentation.Rule
import DocAudit.Fault
import DocAudit.Listing
import DocAudit.Log
import DocAudit.Main
import DocAudit.Session
import DocAudit.Session.Basic
import DocAudit.Settings
import DocAudit.Text.Blank
import DocAudit.Text.Encoding
import DocAudit.Text.Position
import DocAudit.Text.Printable
import DocAudit.Text.Quoted
import DocAudit.Text.UpperCase
import DocAudit.Token.Basic
import DocAudit.Token.Lexer
import DocAudit.Token.Reader
import DocAudit.TypeExpr
import DocAudit.World.Basic
import DocAudit.World.FileTree
import DocAudit.World.Path
import DocAudit.World.Walk
import DocAudit.Yaml.Document
import DocAudit.Yaml.Glyph
import DocAudit.Yaml.Mark
import DocAudit.Yaml.Scalar
import DocAudit.Yaml.Value
import DocAudit.Yaml.Wording
import DocAudit.Proofs.Token.Balanced
import DocAudit.Proofs.Token.Layout
import DocAudit.Proofs.Token.Lexeme
import DocAudit.Proofs.TypeExpr.Extent
import DocAudit.Proofs.TypeExpr.Nesting
import DocAudit.Proofs.Outline.Confinement
import DocAudit.Proofs.Outline.Coverage
import DocAudit.Proofs.Declaration.Body
import DocAudit.Proofs.Declaration.Entries
import DocAudit.Proofs.Declaration.Header
import DocAudit.Proofs.Declaration.Signature
import DocAudit.Proofs.Declaration.Struct
import DocAudit.Proofs.Documentation.Completeness
import DocAudit.Proofs.Declaration.Starts
import DocAudit.Proofs.Declaration.Parts
import DocAudit.Proofs.Outline.Comments
import DocAudit.Proofs.Outline.Passthrough
import DocAudit.Proofs.Declaration.Steady
import DocAudit.Proofs.Outline.Locality
import DocAudit.Proofs.Token.Unplaced
import DocAudit.Proofs.Declaration.Unplaced
import DocAudit.Proofs.Token.Blanks
import DocAudit.Proofs.Audit.Verdict
import DocAudit.Proofs.Documentation.Bullets
import DocAudit.Proofs.Text.Position
import DocAudit.Proofs.Audit.Place
import DocAudit.Proofs.World.Walk
import DocAudit.Proofs.Command.Report
import DocAudit.Proofs.Session.Settings
import DocAudit.Proofs.Outline.Head
import DocAudit.Proofs.Outline.Order
import DocAudit.Proofs.Token.Strict
import DocAudit.Proofs.Token.Closer
import DocAudit.Proofs.Documentation.Places
import DocAudit.Proofs.Documentation.Seams
import DocAudit.Proofs.Token.Lines
import DocAudit.Proofs.Audit.LineComments
import DocAudit.Proofs.Audit.Listing
import DocAudit.Proofs.Outline.Refusal
import DocAudit.Proofs.Text.Coordinates
import DocAudit.Proofs.World.Selection
import DocAudit.Proofs.Declaration.Names
import DocAudit.Proofs.Text.LineFeeds
import DocAudit.Proofs.Text.Utf8
import DocAudit.Proofs.Text.Reading
import DocAudit.Proofs.Session.Source
import DocAudit.Proofs.Settings.Precedence
import DocAudit.Proofs.Command.PathOrder
