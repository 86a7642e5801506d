import Templating.Calendar
import Templating.Calendar.Format
import Templating.CommandLine
import Templating.CommandLine.Demand
import Templating.CommandLine.Report
import Templating.CommandLine.Run
import Templating.Config
import Templating.Context
import Templating.Error
import Templating.Expression
import Templating.FileTree
import Templating.Json.Reader
import Templating.Json.Writer
import Templating.Keyed
import Templating.Listing
import Templating.Loader
import Templating.Main
import Templating.Node
import Templating.Notice
import Templating.Number
import Templating.Number.Binary64
import Templating.Number.Shortest
import Templating.Outcome
import Templating.Parser
import Templating.Parser.Builtin
import Templating.Parser.Custom
import Templating.Parser.Progress
import Templating.Path
import Templating.Proofs.Bodies
import Templating.Proofs.BuiltinNodes
import Templating.Proofs.Concatenation
import Templating.Proofs.ConfigRounds
import Templating.Proofs.ConfigText
import Templating.Proofs.Containment
import Templating.Proofs.ContextRestored
import Templating.Proofs.DefinedVariables
import Templating.Proofs.DottedPaths
import Templating.Proofs.Expansion
import Templating.Proofs.FileWriting
import Templating.Proofs.IncludableNames
import Templating.Proofs.InclusionChain
import Templating.Proofs.InclusionGuard
import Templating.Proofs.JsonReports
import Templating.Proofs.JsonStrings
import Templating.Proofs.JsonTexts
import Templating.Proofs.Leaves
import Templating.Proofs.LegibleTokens
import Templating.Proofs.LoadedFiles
import Templating.Proofs.LoopItems
import Templating.Proofs.NamedVariables
import Templating.Proofs.OnePass
import Templating.Proofs.OpenFiles
import Templating.Proofs.OpenScopes
import Templating.Proofs.OpenTags
import Templating.Proofs.ParsedAlike
import Templating.Proofs.ParserSimulation
import Templating.Proofs.ParserTurns
import Templating.Proofs.PlainSegments
import Templating.Proofs.QuotedLiterals
import Templating.Proofs.QuotedTexts
import Templating.Proofs.ReachableValues
import Templating.Proofs.Registration
import Templating.Proofs.RenderResult
import Templating.Proofs.RenderSteps
import Templating.Proofs.RenderTermination
import Templating.Proofs.Respacing
import Templating.Proofs.RunOutput
import Templating.Proofs.ScopeOperations
import Templating.Proofs.SearchOrder
import Templating.Proofs.SourceCuts
import Templating.Proofs.StrictParsing
import Templating.Proofs.TokenLines
import Templating.Proofs.TomlStrings
import Templating.Proofs.TwoRuns
import Templating.Proofs.Words
import Templating.Render
import Templating.Template
import Templating.Text.Aligned
import Templating.Text.Blank
import Templating.Text.Digits
import Templating.Text.Printable
import Templating.Text.Quoted
import Templating.Text.Split
import Templating.Token
import Templating.Token.Components
import Templating.Token.Json
import Templating.Token.Scan
import Templating.Toml.Datetime
import Templating.Toml.Item
import Templating.Toml.Quoted
import Templating.Toml.Reader
import Templating.Toml.Table
import Templating.Toml.Value
import Templating.Toml.Writer
import Templating.Value
