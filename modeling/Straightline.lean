import Straightline.Text.Ranges
import Straightline.Text.Bytes
import Straightline.Text.Blank
import Straightline.Text.Alphabetic
import Straightline.Text.Numeric
import Straightline.Text.Unprintable
import Straightline.Double
import Straightline.Decimal.Digits
import Straightline.Double.Nearest
import Straightline.Decimal.Numeral
import Straightline.Double.Fixed
import Straightline.Double.Shortest
import Straightline.Double.Constant
import Straightline.Text.Quoted
import Straightline.Text.Utf8
import Straightline.Text.Hex
import Straightline.Ir.Instruction
import Straightline.Ir.NameSupply
import Straightline.Ir.Module
import Straightline.Ir.Builder
import Straightline.Ir.Text
import Straightline.Script.Token
import Straightline.Script.Lexer
import Straightline.Execution.Value
import Straightline.Execution.Printf
import Straightline.Execution.Run
import Straightline.Log.Event
import Straightline.Emission.Symbols
import Straightline.Emission.Operator
import Straightline.Emission.Compilation
import Straightline.Script.TokenStream
import Straightline.Script.Step
import Straightline.Script.Parser
import Straightline.Script.Compile
import Straightline.Text.Split
import Straightline.Project.Path
import Straightline.Project.FileSystem
import Straightline.Project.FileTree
import Straightline.Project.Job
import Straightline.Text.Reader
import Straightline.Text.Pattern
import Straightline.Toml.Basic
import Straightline.Toml.Text
import Straightline.Toml.Number
import Straightline.Toml.Table
import Straightline.Toml.Document
import Straightline.Project.Settings
import Straightline.Project.Pipeline
import Straightline.Log.Filter
import Straightline.CommandLine.Arguments
import Straightline.CommandLine.Command
import Straightline.Main
import Straightline.Proofs.Results
import Straightline.Proofs.Script.Tree
import Straightline.Proofs.Script.Grammar
import Straightline.Proofs.Script.Reading
import Straightline.Proofs.Script.Quotes
import Straightline.Proofs.Ir.Names
import Straightline.Proofs.Ir.Building
import Straightline.Proofs.Ir.InPlace
import Straightline.Proofs.Emission.Draft
import Straightline.Proofs.Emission.Agreement
import Straightline.Proofs.Script.Lowering
import Straightline.Proofs.Script.Language
import Straightline.Proofs.Execution.Running
import Straightline.Proofs.Execution.Formatting
import Straightline.Proofs.Script.Meaning
import Straightline.Proofs.Ir.Lines
import Straightline.Proofs.Script.Policies
import Straightline.Proofs.Script.Native
import Straightline.Proofs.Emission.Calls
import Straightline.Proofs.Emission.Changes
import Straightline.Proofs.Emission.Slots
import Straightline.Proofs.Emission.WellFormed
import Straightline.Proofs.Emission.Placeholder
import Straightline.Proofs.Emission.Sessions
import Straightline.Proofs.Emission.Commands
import Straightline.Proofs.Emission.Assembly
import Straightline.Proofs.Emission.Effects
import Straightline.Proofs.Emission.Evaluation
import Straightline.Proofs.Emission.Failures
import Straightline.Proofs.Execution.Typing
import Straightline.Proofs.Emission.Stores
import Straightline.Proofs.Script.Viable
import Straightline.Proofs.Script.Places
import Straightline.Proofs.Script.Joining
import Straightline.Proofs.Ir.Recovery
import Straightline.Proofs.Emission.SameText
import Straightline.Proofs.Emission.Layout
import Straightline.Proofs.Script.Tiling
import Straightline.Proofs.Ir.Decoding
import Straightline.Proofs.Script.Literals
import Straightline.Proofs.Double.Rounding
import Straightline.Proofs.Double.Constants
import Straightline.Proofs.Script.Placement
import Straightline.Proofs.Script.Blame
import Straightline.Proofs.Script.Spacing
import Straightline.Proofs.Ir.Freshness
import Straightline.Proofs.Ir.LocalNames
import Straightline.Proofs.Project.Files
import Straightline.Proofs.Project.Outcomes
import Straightline.Proofs.Project.Builds
import Straightline.Proofs.Project.Outputs
import Straightline.Proofs.Emission.Registration
import Straightline.Proofs.Script.Numbers
import Straightline.Proofs.Script.SinglePass
