import AskLens.Library.Checks
import AskLens.Library.Binary64
import AskLens.Python.Text
import AskLens.Python.Json
import AskLens.Catalog.Introspection
import AskLens.Python.Calendar
import AskLens.Python.Scalar
import AskLens.Catalog.Registration
import AskLens.Catalog.Registered
import AskLens.Catalog.Disclosure
import AskLens.Catalog.Capabilities
import AskLens.Planning.Schemas
import AskLens.Planning.Temporal
import AskLens.Python.Numbers
import AskLens.Planning.Normalization
import AskLens.Planning.Validation
import AskLens.Compiler.Dates
import AskLens.Compiler.Filters
import AskLens.Compiler.Orm
import AskLens.Planning.RoundTrip
import AskLens.Planning.Accepted
import AskLens.Compiler.JoinBudget
import AskLens.Execution.Runner
import AskLens.Compiler.Joins
import AskLens.Planning.Canonical
import AskLens.Compiler.Totality
import AskLens.Planning.Concealment
import AskLens.Python.Scanning
import AskLens.Planning.Containment
import AskLens.Python.Uuid
import AskLens.Planning.FixedPoint
import AskLens.Django.Database
import AskLens.Library.Arrangements
import AskLens.Django.RowSet
import AskLens.Planning.Representatives
import AskLens.Planning.Monotone
import AskLens.Django.Transactions
import AskLens.Observability
import AskLens.Execution.Audit
import AskLens.Execution.Facade
import AskLens.Execution.Requests
import AskLens.Execution.Endings
import AskLens.Execution.RecordedOnce
import AskLens.Api.RunDetail
import AskLens.Planning.Guidance
import AskLens.Compiler.Evaluation
import AskLens.Compiler.Ties
import AskLens.Compiler.Grain
import AskLens.Compiler.Conjunction
import AskLens.Compiler.Meaning
import AskLens.Execution.Reference
import AskLens.Contracts.QueryPlanSchema
import AskLens.Contracts.ParserAgreement
import AskLens.Planning.Budgets
import AskLens.Planning.Unavailable
import AskLens.Compiler.RelativeFilters
import AskLens.Python.Ordinals
import AskLens.Compiler.Windows
import AskLens.Library.Transitions
import AskLens.Compiler.WallTimes
import AskLens.Library.LastClaim
import AskLens.Planning.HelpReferences
import AskLens.Planning.Help
import AskLens.Planning.KeptSuggestions
import AskLens.Planning.EnumTokens
import AskLens.Python.DecimalValues
import AskLens.Planning.SemanticDuplicates
import AskLens.Compiler.Paths
import AskLens.Planning.Refusals
import AskLens.Python.Decimals
import AskLens.Python.PlainDecimals
import AskLens.Results.Serialization
import AskLens.Results.Typing
import AskLens.Contracts.Documents
import AskLens.Contracts.Conformance
import AskLens.Library.Runs
import AskLens.Management.AuditTable
import AskLens.Management.Redaction
import AskLens.Management.Purge
import AskLens.Python.TemporalTexts
import AskLens.Planning.TemporalMeaning
import AskLens.Management.Cutoff
import AskLens.Catalog.ScopeTokens
import AskLens.Catalog.QueryGuidance
import AskLens.Catalog.HeldScopes
import AskLens.Catalog.ScopeConcealment
import AskLens.Library.Selection
import AskLens.Planning.Optimization
import AskLens.Planning.DeterministicHelp
import AskLens.Planning.FallbackHelp
import AskLens.Planning.SuggestedPlans
import AskLens.Compiler.PostedPlans
import AskLens.Planning.Presentation
import AskLens.Results.Presentation
import AskLens.Planning.ProviderResponses
import AskLens.Planning.CompactPlans
import AskLens.Planning.Intents
import AskLens.Querying.Providers
import AskLens.Querying.Service
import AskLens.Querying.Refinement
import AskLens.Querying.Answers
import AskLens.Querying.Records
import AskLens.Querying.PostedAnswers
import AskLens.Querying.Disclosure
import AskLens.Library.Rounding
import AskLens.Python.NumberTexts
import AskLens.Python.JsonRoundTrip
import AskLens.Python.Utf8
import AskLens.Planning.DecodedDumps
import AskLens.Planning.DumpNesting
import AskLens.Planning.EncodablePayloads
import AskLens.Planning.ContainedHelp
import AskLens.Querying.PayloadForms
import AskLens.Querying.RefreshedAnswers
import AskLens.Execution.PlanRuns
import AskLens.Querying.Responses
import AskLens.Mcp.Core
import AskLens.Mcp.RowPolicy
import AskLens.Mcp.PlanPreview
