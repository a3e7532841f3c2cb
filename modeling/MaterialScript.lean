import MaterialScript.Action
import MaterialScript.Assembly
import MaterialScript.Command
import MaterialScript.Compiler
import MaterialScript.Delivery
import MaterialScript.Position
import MaterialScript.Document
import MaterialScript.Files
import MaterialScript.Grammar.Document
import MaterialScript.Grammar.Rule
import MaterialScript.Log
import MaterialScript.Main
import MaterialScript.Material
import MaterialScript.Number.Binary32
import MaterialScript.Number.Decimal
import MaterialScript.Number.Layout
import MaterialScript.Output.Data
import MaterialScript.Settings.Basic
import MaterialScript.Output.Printer
import MaterialScript.Output.Yaml
import MaterialScript.Proofs.Derivation.Tree
import MaterialScript.Proofs.Derivation.Unambiguous
import MaterialScript.Registry
import MaterialScript.RenderState
import MaterialScript.Resource
import MaterialScript.Settings.Cursor
import MaterialScript.Settings.KeyPath
import MaterialScript.Settings.Loader
import MaterialScript.Settings.Scalar
import MaterialScript.Settings.Scanner
import MaterialScript.Settings.Tree
import MaterialScript.Text.Letters
import MaterialScript.Text.Basic
import MaterialScript.Text.Quoted
import MaterialScript.Token.Basic
import MaterialScript.Token.Lexer
import MaterialScript.Proofs.Derivation.Accepts
import MaterialScript.Proofs.Derivation.Parse
import MaterialScript.Proofs.Derivation.Frontier
import MaterialScript.Proofs.Translation.Meaning
import MaterialScript.Proofs.Translation.Replay
import MaterialScript.Proofs.Translation.Requests
import MaterialScript.Proofs.Lexing.Match
import MaterialScript.Proofs.Lexing.Segments
import MaterialScript.Proofs.Lexing.Tiling
import MaterialScript.Proofs.Derivation.Rejection
import MaterialScript.Proofs.Registry.Numbering
import MaterialScript.Proofs.Registry.Session
import MaterialScript.Proofs.Derivation.Spans
import MaterialScript.Proofs.Lexing.Seam
import MaterialScript.Proofs.Derivation.Append
import MaterialScript.Proofs.Translation.Concatenation
import MaterialScript.Proofs.Lexing.Arrangement
import MaterialScript.Proofs.Translation.Relayout
import MaterialScript.Proofs.Assembly.Nesting
import MaterialScript.Proofs.Assembly.Accounts
import MaterialScript.Proofs.Material.Parcels
import MaterialScript.Proofs.Assembly.Failures
import MaterialScript.Proofs.Material.Layers
import MaterialScript.Proofs.Number.Literal
import MaterialScript.Proofs.Derivation.Reasons
import MaterialScript.Proofs.Translation.Numbers
import MaterialScript.Proofs.Lexing.Spelled
import MaterialScript.Proofs.Number.Plain
import MaterialScript.Proofs.Translation.Printed
import MaterialScript.Proofs.Lexing.Errors
import MaterialScript.Proofs.Output.Treeviz
import MaterialScript.Proofs.Output.JsonDocument
import MaterialScript.Proofs.Material.Places
import MaterialScript.Proofs.Material.Repetition
import MaterialScript.Proofs.Material.Overlay
import MaterialScript.Proofs.Material.Distinct
import MaterialScript.Proofs.Material.Copies
import MaterialScript.Proofs.Registry.Interning
import MaterialScript.Proofs.Material.Lookup
import MaterialScript.Proofs.Lexing.Excerpt
import MaterialScript.Proofs.Derivation.Origins
import MaterialScript.Proofs.Translation.Excerpts
import MaterialScript.Proofs.Position.Boundaries
import MaterialScript.Proofs.Position.Diagnostics
