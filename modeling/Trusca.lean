import Trusca.Store.Table
import Trusca.Proofs.Approval.ComponentApproval
import Trusca.Proofs.Scan.Lifecycle
import Trusca.Proofs.Triage.Bulk
import Trusca.Proofs.Triage.DecideRace
import Trusca.Proofs.Triage.TwoPerson
import Trusca.Proofs.Triage.VexRoundTrip
import Trusca.Data.Dict
import Trusca.License.Expression
import Trusca.License.Policy
import Trusca.Store.Serial
import Trusca.License.PolicyRace
import Trusca.Proofs.License.PolicyRace
import Trusca.Proofs.License.Transparency
import Trusca.Matching.Reconciler
import Trusca.Proofs.Matching.Reconciler
import Trusca.Gate.ActionQueue
import Trusca.Proofs.Gate.Terms
import Trusca.Proofs.Gate.Parity
import Trusca.Group.Tree
import Trusca.Proofs.Group.Access
import Trusca.Gate.PolicySave
import Trusca.Proofs.Gate.PolicySave
import Trusca.License.Fold
import Trusca.Proofs.License.Fold
import Trusca.Store.Rows
import Trusca.Scan.Retention
import Trusca.Proofs.Scan.Retention
import Trusca.Proofs.Scan.Reclaim
import Trusca.Proofs.Scan.Snapshots
import Trusca.Group.Membership
import Trusca.Proofs.Group.LastAdmin
import Trusca.Store.Page
import Trusca.Upgrade.Recommendation
import Trusca.Upgrade.Cluster
import Trusca.Proofs.Upgrade.Cluster
import Trusca.Store.Items
import Trusca.Store.Walk
import Trusca.Dependency.Lockfile
import Trusca.Dependency.Graph
import Trusca.Proofs.Dependency.Depths
import Trusca.Proofs.Dependency.Lockfile
import Trusca.Group.Hierarchy
import Trusca.Proofs.Group.Hierarchy
import Trusca.Proofs.Group.Forest
import Trusca.Proofs.Account.Anonymisation
import Trusca.Proofs.Account.Enrolment
import Trusca.Proofs.Account.SuperAdmin
import Trusca.Account.PendingToken
import Trusca.Proofs.Account.PendingToken
import Trusca.Store.History
import Trusca.Account.Throttle
import Trusca.Proofs.Account.Throttle
import Trusca.Proofs.Account.CodeHistory
import Trusca.Proofs.Account.RecoveryCodes
import Trusca.Store.Offset
import Trusca.Secrets.KeyRotation
import Trusca.Proofs.Secrets.KeyRotation
import Trusca.Audit.Export
import Trusca.Proofs.Audit.Export
import Trusca.Account.PasswordReset
import Trusca.Proofs.Account.PasswordReset
import Trusca.Webhook.Delivery
import Trusca.Proofs.Webhook.Delivery
import Trusca.Authz.ApiKey
import Trusca.Proofs.Authz.ApiKey
import Trusca.Scan.Schedule
import Trusca.Proofs.Scan.Schedule
import Trusca.Triage.SlaSweep
import Trusca.Proofs.Triage.SlaSweep
import Trusca.Store.Calls
import Trusca.Remediation.PullRequest
import Trusca.Proofs.Remediation.PullRequest
import Trusca.Sbom.CycloneDx
import Trusca.Proofs.Sbom.Profile
import Trusca.Data.Xml
import Trusca.Proofs.Sbom.Xml
import Trusca.Sbom.CycloneDxXml
import Trusca.Data.Lines
import Trusca.Sbom.Convert
import Trusca.Sbom.Spdx
import Trusca.Proofs.Sbom.Spdx
import Trusca.Data.Segments
import Trusca.Registry.AllowList
import Trusca.Proofs.Registry.AllowList
import Trusca.Data.Chain
import Trusca.Proofs.Sbom.LicenseExpr
import Trusca.Upgrade.Version
import Trusca.Remediation.NpmRange
import Trusca.Data.Semver
import Trusca.Proofs.Remediation.NpmRange
import Trusca.Data.Outcome
import Trusca.Matching.Rematch
import Trusca.Proofs.Matching.RematchSweep
import Trusca.Proofs.Matching.RematchAlerts
import Trusca.License.Obligations
import Trusca.Data.Words
import Trusca.Proofs.License.Obligations
import Trusca.Proofs.License.ObligationSync
import Trusca.Proofs.Dependency.ShortestDepths
import Trusca.Proofs.Upgrade.Version
import Trusca.Proofs.Upgrade.Recommendation
import Trusca.Eol.Catalog
import Trusca.Scan.Stamping
import Trusca.Proofs.Scan.Stamping
import Trusca.Proofs.Malicious.Verdict
import Trusca.Data.Percent
import Trusca.Scan.PackageUrl
import Trusca.Proofs.Scan.PackageUrl
import Trusca.Scan.Licenses
import Trusca.Proofs.Scan.Licenses
import Trusca.License.ExpressionTexts
import Trusca.Proofs.License.Rearrangement
import Trusca.Data.Pattern
import Trusca.Data.Casing
import Trusca.License.Normalize
import Trusca.Proofs.License.Normalize
import Trusca.License.Conflict
import Trusca.Proofs.License.Conflict
import Trusca.Proofs.License.Exception
import Trusca.License.PolicyStore
import Trusca.Proofs.License.PolicyStore
import Trusca.Gate.PolicyResolution
import Trusca.Proofs.Gate.PolicyResolution
import Trusca.Proofs.Matching.CarryForward
import Trusca.Matching.CatalogUpsert
import Trusca.Proofs.Matching.CatalogUpsert
import Trusca.Scan.PayloadCleaning
import Trusca.Data.PyJson
import Trusca.Proofs.Scan.PayloadCleaning
import Trusca.Sbom.ScopeFilter
import Trusca.Proofs.Sbom.ScopeFilter
import Trusca.Proofs.Triage.VexAccounting
import Trusca.Sbom.Conformance
import Trusca.Proofs.Sbom.Conformance
import Trusca.Scan.RefKey
import Trusca.Proofs.Scan.RefKey
import Trusca.Data.Uri
import Trusca.Triage.TicketUrl
import Trusca.Proofs.Triage.TicketUrl
import Trusca.Proofs.Account.ThrottleRuns
import Trusca.Store.Scored
import Trusca.Websocket.Registry
import Trusca.Proofs.Websocket.Registry
import Trusca.Scan.ReleaseDiff
import Trusca.Proofs.Scan.ReleaseDiff
import Trusca.Approval.Enrolment
import Trusca.Proofs.Approval.Enrolment
import Trusca.Proofs.Dependency.Adjacency
import Trusca.Proofs.Dependency.Resolution
import Trusca.Proofs.Scan.SourceTree
import Trusca.Proofs.Account.RedirectAfter
