import SalesQuery.Binary64.Arithmetic
import SalesQuery.Binary64.Basic
import SalesQuery.Binary64.Shortest
import SalesQuery.Binary64.Text
import SalesQuery.Cache.Fingerprint
import SalesQuery.Cache.KeyPattern
import SalesQuery.Cache.ResultCache
import SalesQuery.Cache.Store
import SalesQuery.Calendar.Date
import SalesQuery.Calendar.DateText
import SalesQuery.Calendar.Range
import SalesQuery.Catalog.Basic
import SalesQuery.Catalog.Consistency
import SalesQuery.Catalog.Json
import SalesQuery.Catalog.Restaurant
import SalesQuery.Database.Option
import SalesQuery.Database.OptionList
import SalesQuery.Database.Url
import SalesQuery.Dictionary
import SalesQuery.Digest.Sha256
import SalesQuery.Http.MediaType
import SalesQuery.Http.Message
import SalesQuery.Http.QueryString
import SalesQuery.Http.Route
import SalesQuery.Http.Server
import SalesQuery.Json.Bytes
import SalesQuery.Json.Decode
import SalesQuery.Json.Document
import SalesQuery.Json.Numeral
import SalesQuery.Json.Quoted
import SalesQuery.Json.Text
import SalesQuery.Json.Value
import SalesQuery.Main
import SalesQuery.Network.HostAddress
import SalesQuery.Network.IpAddress
import SalesQuery.Network.SocketAddress
import SalesQuery.Overflow
import SalesQuery.Proofs.Admissibility
import SalesQuery.Proofs.AggregateGrammar
import SalesQuery.Proofs.AggregateReading
import SalesQuery.Proofs.AggregateWhitelist
import SalesQuery.Proofs.CacheHistory
import SalesQuery.Proofs.CacheKeys
import SalesQuery.Proofs.CacheRuns
import SalesQuery.Proofs.CanonicalText
import SalesQuery.Proofs.CatalogConsistency
import SalesQuery.Proofs.ChainLookups
import SalesQuery.Proofs.DateSpelling
import SalesQuery.Proofs.DateText
import SalesQuery.Proofs.DependencyChains
import SalesQuery.Proofs.DependencyFaults
import SalesQuery.Proofs.EntryLookup
import SalesQuery.Proofs.Expiry
import SalesQuery.Proofs.Faults
import SalesQuery.Proofs.FilterDays
import SalesQuery.Proofs.FilterPlacement
import SalesQuery.Proofs.Fingerprint
import SalesQuery.Proofs.FirstEntries
import SalesQuery.Proofs.FragmentText
import SalesQuery.Proofs.GreatestPlaceholder
import SalesQuery.Proofs.IntegerBinding
import SalesQuery.Proofs.Invalidation
import SalesQuery.Proofs.JoinScope
import SalesQuery.Proofs.JsonText
import SalesQuery.Proofs.KeyMatching
import SalesQuery.Proofs.LineConditions
import SalesQuery.Proofs.MemberOrder
import SalesQuery.Proofs.MissingEntries
import SalesQuery.Proofs.NumberText
import SalesQuery.Proofs.OpenFilters
import SalesQuery.Proofs.ParameterAlignment
import SalesQuery.Proofs.ParameterBound
import SalesQuery.Proofs.PatternClasses
import SalesQuery.Proofs.PatternMeaning
import SalesQuery.Proofs.PlaceholderText
import SalesQuery.Proofs.PlanSteps
import SalesQuery.Proofs.ReadingBack
import SalesQuery.Proofs.Refusals
import SalesQuery.Proofs.RequestJson
import SalesQuery.Proofs.RequestRoundTrip
import SalesQuery.Proofs.RequestSpelling
import SalesQuery.Proofs.Resolution
import SalesQuery.Proofs.RowBounds
import SalesQuery.Proofs.RowMeaning
import SalesQuery.Proofs.ShortestDecimal
import SalesQuery.Proofs.StatementText
import SalesQuery.Proofs.StoreContents
import SalesQuery.Proofs.Success
import SalesQuery.Proofs.TrendShown
import SalesQuery.Proofs.ValueIndependence
import SalesQuery.Proofs.WildcardRemoval
import SalesQuery.Query.Aggregate
import SalesQuery.Query.Compile
import SalesQuery.Query.JoinPlan
import SalesQuery.Query.Resolve
import SalesQuery.Query.Resolved
import SalesQuery.Report.Aggregate
import SalesQuery.Report.Comparison
import SalesQuery.Report.Dashboard
import SalesQuery.Report.Filters
import SalesQuery.Report.Listing
import SalesQuery.Report.Request
import SalesQuery.Report.Rounding
import SalesQuery.Report.Row
import SalesQuery.Request.Basic
import SalesQuery.Request.Canonical
import SalesQuery.Request.Fault
import SalesQuery.Request.Json
import SalesQuery.Service.Engine
import SalesQuery.Service.Fault
import SalesQuery.Service.Session
import SalesQuery.Settings.Basic
import SalesQuery.Settings.Environment
import SalesQuery.Sql.Fragment
import SalesQuery.Sql.Placeholder
import SalesQuery.Sql.Scalar
import SalesQuery.Sql.Statement
import SalesQuery.Startup
import SalesQuery.Text.Ascii
import SalesQuery.Text.Base64
import SalesQuery.Text.Blank
import SalesQuery.Text.Cased
import SalesQuery.Text.Integer
import SalesQuery.Text.LowerCase
import SalesQuery.Text.Percent
import SalesQuery.Text.Utf8
import SalesQuery.Tls.Certificate
import SalesQuery.Tls.CurveP256
import SalesQuery.Tls.Der
import SalesQuery.Tls.Identity
import SalesQuery.Tls.Pem
import SalesQuery.Tls.PrivateKey
