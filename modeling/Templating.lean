import Templating.Text.Blank
import Templating.Text.Casing
import Templating.Text.Occurrence
import Templating.Text.Reference
import Templating.Text.Percent
import Templating.Text.Quoted
import Templating.Decimal.Fixed
import Templating.Decimal.Numeral
import Templating.Json.Printer
import Templating.Expr.Operator
import Templating.Expr.Token
import Templating.Expr.Literal
import Templating.Expr.Parser
import Templating.Value.Equality
import Templating.Value.Json
import Templating.Value.Inspect
import Templating.Eval.Operator
import Templating.Eval.Builtin
import Templating.Eval.Method
import Templating.Eval
import Templating.Template.Compile
import Templating.Template.Diagnostic
import Templating.Render.State
import Templating.Render
import Templating.Proofs.StructuredRun
import Templating.Proofs.Simulation
import Templating.Proofs.Caching
import Templating.Proofs.Sessions
import Templating.Proofs.LayoutLast
import Templating.Proofs.Moments
import Templating.Proofs.Tracking
import Templating.Proofs.Stacks
import Templating.Proofs.Cutting
import Templating.Proofs.CompileErrors
import Templating.Proofs.CacheLog
import Templating.Proofs.Progress
import Templating.Proofs.RoundTrip
import Templating.Proofs.CallDepth
import Templating.Proofs.FailurePlaces
import Templating.Proofs.NameMeanings
import Templating.Proofs.KnownTags
import Templating.Proofs.LayoutPage
import Templating.Proofs.TagForms
import Templating.Proofs.Targets
import Templating.Proofs.Escapes
import Templating.Proofs.Pairs
import Templating.Proofs.Substitutions
import Templating.Proofs.Spacing
import Templating.Proofs.Grouping
import Templating.Proofs.ChainReading
import Templating.Proofs.MarkupReferences
import Templating.Proofs.OptionalSteps
import Templating.Proofs.TokenTiles
import Templating.Proofs.ArrayNumbers
import Templating.Proofs.Paths
import Templating.Proofs.NumericTexts
import Templating.Proofs.ItemKeys
import Templating.Proofs.RootPaths
import Templating.Proofs.GrammarOrder
import Templating.Proofs.DeeperLimits
import Templating.Proofs.ArgumentLists
import Templating.Proofs.JsonValues
import Templating.Proofs.Comparisons
import Templating.Proofs.MemberKeys
import Templating.Proofs.Traversals
import Templating.Proofs.TextLengths
import Templating.Proofs.Replacing
import Templating.Proofs.Searches
import Templating.Proofs.RadixNumerals
import Templating.Proofs.LoopHeaders
import Templating.Proofs.AddressParts
import Templating.Proofs.NameReading
import Templating.Proofs.ParserErrors
import Templating.Proofs.TemplateChunks
import Templating.Proofs.QuotedPlaces
import Templating.Proofs.Carets
