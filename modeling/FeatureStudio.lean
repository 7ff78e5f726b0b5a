import FeatureStudio.CommandLine.Arguments
import FeatureStudio.CommandLine.Run
import FeatureStudio.Decimal
import FeatureStudio.Dialog.Annotations
import FeatureStudio.Dialog.Bounds
import FeatureStudio.Dialog.Parameter
import FeatureStudio.Disk.Basic
import FeatureStudio.Disk.Program
import FeatureStudio.Enumeration.Basic
import FeatureStudio.Enumeration.Builder
import FeatureStudio.Import
import FeatureStudio.Keyed
import FeatureStudio.Main
import FeatureStudio.Manifest.Basic
import FeatureStudio.Manifest.Decode
import FeatureStudio.Manifest.Error
import FeatureStudio.Manifest.File
import FeatureStudio.Manifest.Studio
import FeatureStudio.Manifest.Validation
import FeatureStudio.Render.Context
import FeatureStudio.Render.Declaration
import FeatureStudio.Render.Node
import FeatureStudio.Render.Operand
import FeatureStudio.Report
import FeatureStudio.Script.Function
import FeatureStudio.Script.IfChain
import FeatureStudio.Script.Map
import FeatureStudio.Script.Node
import FeatureStudio.Script.Operator
import FeatureStudio.Script.Studio
import FeatureStudio.Text.Basic
import FeatureStudio.Text.CaseMapping
import FeatureStudio.Text.CharClass
import FeatureStudio.Text.Name
import FeatureStudio.Text.Printable
import FeatureStudio.Toml.Decoder
import FeatureStudio.Toml.Document
import FeatureStudio.Toml.Scalar
import FeatureStudio.Toml.Value
import FeatureStudio.Proofs.CommandLine.Starter
import FeatureStudio.Proofs.Dialog.BoundSpec
import FeatureStudio.Proofs.Dialog.Description
import FeatureStudio.Proofs.Dialog.Quoting
import FeatureStudio.Proofs.Disk.Replacement
import FeatureStudio.Proofs.Disk.Sparing
import FeatureStudio.Proofs.Enumeration.Building
import FeatureStudio.Proofs.Enumeration.Declaration
import FeatureStudio.Proofs.Enumeration.Lookup
import FeatureStudio.Proofs.Enumeration.Selection
import FeatureStudio.Proofs.Enumeration.Steps
import FeatureStudio.Proofs.Enumeration.Template
import FeatureStudio.Proofs.Expression.Comment
import FeatureStudio.Proofs.Expression.Grammar
import FeatureStudio.Proofs.Expression.Inlining
import FeatureStudio.Proofs.Expression.Position
import FeatureStudio.Proofs.Manifest.Diagnostics
import FeatureStudio.Proofs.Manifest.Dialog
import FeatureStudio.Proofs.Manifest.Documents
import FeatureStudio.Proofs.Manifest.Imports
import FeatureStudio.Proofs.Manifest.Labels
import FeatureStudio.Proofs.Manifest.Legality
import FeatureStudio.Proofs.Manifest.Lookup
import FeatureStudio.Proofs.Manifest.Lowering
import FeatureStudio.Proofs.Manifest.Namespace
import FeatureStudio.Proofs.Render.Coercion
import FeatureStudio.Proofs.Render.Frame
import FeatureStudio.Proofs.Render.Independence
import FeatureStudio.Proofs.Render.Lines
import FeatureStudio.Proofs.Render.Markers
import FeatureStudio.Proofs.Render.Transaction
import FeatureStudio.Proofs.Render.TreeBalance
import FeatureStudio.Proofs.Render.Warnings
import FeatureStudio.Proofs.Script.Chain
import FeatureStudio.Proofs.Script.Map
import FeatureStudio.Proofs.Script.Override
import FeatureStudio.Proofs.Text.IndentedLines
import FeatureStudio.Proofs.Text.Label
import FeatureStudio.Proofs.Text.Position
import FeatureStudio.Proofs.Text.SafeLiteral
import FeatureStudio.Proofs.Toml.Reading
