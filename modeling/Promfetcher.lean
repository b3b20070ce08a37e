import Promfetcher.Foundation.Transition
import Promfetcher.Foundation.Text
import Promfetcher.Foundation.Cut
import Promfetcher.Foundation.Url
import Promfetcher.Foundation.Uuid
import Promfetcher.Foundation.Utf8
import Promfetcher.Foundation.Slice
import Promfetcher.Foundation.Json
import Promfetcher.Foundation.JsonString
import Promfetcher.Foundation.JsonNumber
import Promfetcher.Foundation.JsonGrammar
import Promfetcher.Foundation.JsonRender
import Promfetcher.Foundation.Keyed
import Promfetcher.Foundation.Query
import Promfetcher.Foundation.Bus
import Promfetcher.Foundation.Pool
import Promfetcher.Foundation.Table
import Promfetcher.Foundation.History
import Promfetcher.Foundation.HttpClient
import Promfetcher.Models.Route
import Promfetcher.Models.RouteKey
import Promfetcher.Models.Routes
import Promfetcher.Models.LiveRoutes
import Promfetcher.Models.Lookup
import Promfetcher.Models.LinkedRoutes
import Promfetcher.Models.Find
import Promfetcher.Models.Spellings
import Promfetcher.Models.Dump
import Promfetcher.Mbus.Message
import Promfetcher.Mbus.ValidText
import Promfetcher.Mbus.Client
import Promfetcher.Fetchers.RoutesFetcher
import Promfetcher.Fetchers.Startup
import Promfetcher.Fetchers.Registration
import Promfetcher.Fetchers.Heartbeats
import Promfetcher.Fetchers.LookupModes
import Promfetcher.Fetchers.RouteDump
import Promfetcher.Fetchers.RequestSlices
import Promfetcher.Errors
import Promfetcher.Config.ExternalExporters
import Promfetcher.Config.Dsn
import Promfetcher.Config.Database
import Promfetcher.Clients.Redirects
import Promfetcher.Models.AppEndpoint
import Promfetcher.Scrapers.Scrape
import Promfetcher.Fetchers.Families
import Promfetcher.Fetchers.MetricsFetcher
import Promfetcher.Fetchers.Accounting
import Promfetcher.Fetchers.Headers
import Promfetcher.Fetchers.Outcome
import Promfetcher.Fetchers.Series
import Promfetcher.Fetchers.Labels
import Promfetcher.Fetchers.Attribution
import Promfetcher.Api.Render
import Promfetcher.Api.Broker
import Promfetcher.Api.ConcurrentBroker
import Promfetcher.Scrapers.LatestBinding
import Promfetcher.Scrapers.Target
import Promfetcher.Scrapers.ExporterUrl
import Promfetcher.Api.Bindings
import Promfetcher.Shutdown
import Promfetcher.Foundation.Machine
import Promfetcher.Foundation.Decimal
import Promfetcher.Foundation.Fallible
import Promfetcher.Expfmt.Tokens
import Promfetcher.Expfmt.TextParser
import Promfetcher.Expfmt.Moves
import Promfetcher.Expfmt.WellFormed
import Promfetcher.Expfmt.TextCreate
import Promfetcher.Expfmt.Reader
import Promfetcher.Expfmt.Lines
import Promfetcher.Expfmt.WholeLines
import Promfetcher.Expfmt.Gathering
import Promfetcher.Expfmt.Sequence
import Promfetcher.Expfmt.RoundTrip
import Promfetcher.Expfmt.Exact
import Promfetcher.Foundation.Paths
import Promfetcher.Foundation.QuerySize
import Promfetcher.Api.Handler
import Promfetcher.Expfmt.Listing
import Promfetcher.Expfmt.Again
import Promfetcher.Api.ReadBack
import Promfetcher.Foundation.Lists
