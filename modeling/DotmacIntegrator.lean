import DotmacIntegrator.Foundation.StepSystem
import DotmacIntegrator.Foundation.RaisingLoop
import DotmacIntegrator.Foundation.Dict
import DotmacIntegrator.Foundation.Text
import DotmacIntegrator.Foundation.TextReplace
import DotmacIntegrator.Foundation.MarkedReplace
import DotmacIntegrator.Foundation.OverlappingReplace
import DotmacIntegrator.Foundation.PickedReplace
import DotmacIntegrator.Foundation.Fallible
import DotmacIntegrator.Foundation.Json
import DotmacIntegrator.Foundation.JsonEncode
import DotmacIntegrator.Foundation.PyRepr
import DotmacIntegrator.Foundation.PyDigits
import DotmacIntegrator.Foundation.Uuid
import DotmacIntegrator.Foundation.Transaction
import DotmacIntegrator.Foundation.Observed
import DotmacIntegrator.Foundation.JsonParse
import DotmacIntegrator.Foundation.JsonRoundTrip
import DotmacIntegrator.Foundation.SignificantDigits
import DotmacIntegrator.Foundation.GeneralFormat
import DotmacIntegrator.Foundation.PyFormat
import DotmacIntegrator.Foundation.RoseTree
import DotmacIntegrator.Foundation.Blanking
import DotmacIntegrator.Foundation.PyLogging
import DotmacIntegrator.Foundation.Sql
import DotmacIntegrator.Foundation.NumeralSuffix
import DotmacIntegrator.Foundation.Rfc8259
import DotmacIntegrator.Foundation.TryExcept
import DotmacIntegrator.Foundation.Grouping
import DotmacIntegrator.Foundation.PyFloatSum
import DotmacIntegrator.Foundation.UrlSpelling
import DotmacIntegrator.Foundation.StreamLoop
import DotmacIntegrator.Foundation.Unambiguous
import DotmacIntegrator.Foundation.JsonKeyOrder
import DotmacIntegrator.Foundation.JsonUnambiguous
import DotmacIntegrator.Secrets.Resolver
import DotmacIntegrator.Secrets.Redaction
import DotmacIntegrator.Secrets.RedactionOrder
import DotmacIntegrator.ProductPort.Schema
import DotmacIntegrator.ProductPort.CanonicalBody
import DotmacIntegrator.ProductPort.Conformance
import DotmacIntegrator.ProductPort.Envelope
import DotmacIntegrator.ProductPort.Addressing
import DotmacIntegrator.ProductPort.Sameness
import DotmacIntegrator.ProductPort.Fingerprint
import DotmacIntegrator.ProductPort.Client
import DotmacIntegrator.Delivery.Pump
import DotmacIntegrator.ProductPort.Outcome
import DotmacIntegrator.ProductPort.Credential
import DotmacIntegrator.ProductPort.Posts
import DotmacIntegrator.Delivery.Shadow
import DotmacIntegrator.Delivery.Installation
import DotmacIntegrator.Delivery.Selector
import DotmacIntegrator.Delivery.InboxRuns
import DotmacIntegrator.Telemetry.Families
import DotmacIntegrator.Telemetry.Exposition
import DotmacIntegrator.Configuration.Settings
import DotmacIntegrator.ProductPort.DescriptorReader
import DotmacIntegrator.Secrets.Loading
import DotmacIntegrator.Secrets.LoadOutcome
import DotmacIntegrator.Secrets.Dereferencers
import DotmacIntegrator.Secrets.Isolation
import DotmacIntegrator.Secrets.Refresh
import DotmacIntegrator.Operations.Ledger
import DotmacIntegrator.Operations.Surface
import DotmacIntegrator.Operations.Authoring
import DotmacIntegrator.Operations.Enablement
import DotmacIntegrator.Operations.Atomicity
import DotmacIntegrator.Operations.Repair
import DotmacIntegrator.Operations.Provenance
import DotmacIntegrator.Operations.Redacted
import DotmacIntegrator.Operations.Evidence
import DotmacIntegrator.ProductSurface.Authentication
import DotmacIntegrator.ProductSurface.Dispatch
import DotmacIntegrator.ProductSurface.Routes
import DotmacIntegrator.Worker.Lifecycle
import DotmacIntegrator.Surface.Audit
import DotmacIntegrator.Ingress.LogRedaction
import DotmacIntegrator.Telemetry.ScrapeGuard
import DotmacIntegrator.ProductSurface.Refusal
import DotmacIntegrator.Telemetry.Snapshot
import DotmacIntegrator.Worker.SweepCounter
import DotmacIntegrator.ProductPort.ContractRegistry
import DotmacIntegrator.ProductPort.Reconciliation
import DotmacIntegrator.ProductPort.Acceptance
import DotmacIntegrator.ProductPort.Collections
import DotmacIntegrator.ProductPort.WireNumbers
import DotmacIntegrator.ProductPort.UrllibTransport
import DotmacIntegrator.ProductPort.Sent
import DotmacIntegrator.Operations.HeldReferences
import DotmacIntegrator.ProductSurface.CallerOrder
import DotmacIntegrator.ProductSurface.ForeignOperations
import DotmacIntegrator.Worker.Provisioning
import DotmacIntegrator.Telemetry.Emission
import DotmacIntegrator.Telemetry.Counters
import DotmacIntegrator.Telemetry.QueryCounters
import DotmacIntegrator.Telemetry.Recording
import DotmacIntegrator.ProductPort.Construction
import DotmacIntegrator.Telemetry.ProductionScrape
import DotmacIntegrator.Ingress.CappedBody
import DotmacIntegrator.ProductPort.CanonicalText
import DotmacIntegrator.Foundation.Process
import DotmacIntegrator.Ingress.Routes
import DotmacIntegrator.Operations.OperatorAuth
import DotmacIntegrator.Operations.OperatorRoutes
import DotmacIntegrator.ProductPort.CanonicalShape
import DotmacIntegrator.Secrets.Confinement
import DotmacIntegrator.Assembly.MountedSurface
import DotmacIntegrator.Assembly.Boot
import DotmacIntegrator.Assembly.Serving
import DotmacIntegrator.Telemetry.Scrape
import DotmacIntegrator.Telemetry.ScrapeHistory
import DotmacIntegrator.Secrets.Lookups
import DotmacIntegrator.ProductSurface.QueryAnswers
import DotmacIntegrator.Worker.Polling
