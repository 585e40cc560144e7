import KubeCenter.Websocket.HubSafety
import KubeCenter.Auth.SessionSafety
import KubeCenter.Auth.OidcCap
import KubeCenter.Auth.PasswordHash
import KubeCenter.Auth.VerifiedEmail
import KubeCenter.Auth.GroupDN
import KubeCenter.Auth.LdapDirectory
import KubeCenter.Auth.RefreshProtocol
import KubeCenter.Auth.LdapGrace
import KubeCenter.Loki.NamespaceMatcher
import KubeCenter.Resources.AccessCache
import KubeCenter.K8s.EvictionSafety
import KubeCenter.CertManager.Freshness
import KubeCenter.Server.RateLimit
import KubeCenter.Notifications.DigestRuns
import KubeCenter.ExternalSecrets.FailedList
import KubeCenter.ExternalSecrets.StartUp
import KubeCenter.ExternalSecrets.Feed
import KubeCenter.Notifications.EmitProtocol
import KubeCenter.Notifications.DispatchedCopies
import KubeCenter.Notifications.Masking
import KubeCenter.Limits.Checker
import KubeCenter.Topology.WellFormed
import KubeCenter.Topology.NonInterference
import KubeCenter.Store.Settings
import KubeCenter.Notifications.Channels
import KubeCenter.Notifications.ChannelVetting
import KubeCenter.Server.MaskedReads
import KubeCenter.Auth.RBACSummary
import KubeCenter.Notifications.Store
import KubeCenter.Notifications.FeedIsolation
import KubeCenter.Websocket.Delivery
import KubeCenter.Websocket.Subscriptions
import KubeCenter.Alerting.Store
import KubeCenter.Core.Keyset
import KubeCenter.ExternalSecrets.BulkWorker
import KubeCenter.ExternalSecrets.OutcomeHistory
import KubeCenter.ExternalSecrets.Bulk
import KubeCenter.ExternalSecrets.BulkProtocol
import KubeCenter.ExternalSecrets.ScopePinning
import KubeCenter.Auth.LocalUsers
import KubeCenter.Auth.Identity
import KubeCenter.Auth.ReservedIdentities
import KubeCenter.Server.AdminGuard
import KubeCenter.Core.GoJsonCodec
import KubeCenter.Core.MergePatch
import KubeCenter.GitOps.ArgoSuspend
import KubeCenter.ServiceMesh.PeerAuth
import KubeCenter.ServiceMesh.MTLSPrecedence
import KubeCenter.Alerting.Webhook
import KubeCenter.Alerting.Notifier
import KubeCenter.Resources.Tasks
import KubeCenter.Resources.DrainProtocol
import KubeCenter.Core.Script
import KubeCenter.Resources.Adapters
import KubeCenter.Resources.Rollback
import KubeCenter.Resources.Health
import KubeCenter.Resources.ClusterScope
import KubeCenter.Policy.Attribution
import KubeCenter.Policy.Normalize
import KubeCenter.Policy.Fetch
import KubeCenter.Policy.SnapshotProtocol
import KubeCenter.Monitoring.QueryRegistry
import KubeCenter.Monitoring.PromQL
import KubeCenter.Monitoring.SlugQuery
import KubeCenter.Monitoring.SlugMeaning
import KubeCenter.Monitoring.SlugFidelity
import KubeCenter.Monitoring.SlugRegistry
import KubeCenter.Auth.ClientProtocol
import KubeCenter.Core.GuardedCache
import KubeCenter.GitOps.AppsCache
import KubeCenter.Auth.OidcFlow
import KubeCenter.Auth.TabProtocol
import KubeCenter.ExternalSecrets.TransitionSpec
import KubeCenter.ExternalSecrets.SeedLifetime
import KubeCenter.Core.GoIP
import KubeCenter.Core.GoNet
import KubeCenter.Server.TrustedProxy
import KubeCenter.K8s.SafeDialer
import KubeCenter.Core.Runs
import KubeCenter.Notifications.Payloads
import KubeCenter.ExternalSecrets.TenantBlind
import KubeCenter.Resources.CRDCatalogue
import KubeCenter.Resources.Crud
import KubeCenter.Yaml.ApplyRun
import KubeCenter.Yaml.BoundedStream
import KubeCenter.Yaml.Handler
import KubeCenter.Server.SecretConfinement
import KubeCenter.Notifications.DigestTime
import KubeCenter.Auth.NamespacePermissions
import KubeCenter.Velero.Handler
import KubeCenter.Velero.SharedSnapshot
import KubeCenter.Velero.DeleteGuard
import KubeCenter.Gateway.Handler
import KubeCenter.Gateway.Visibility
import KubeCenter.Core.ChaoticIteration
import KubeCenter.Topology.HealthRule
import KubeCenter.Topology.HealthSoundness
import KubeCenter.ExternalSecrets.KeyDiffs
import KubeCenter.Websocket.WebClient
import KubeCenter.Websocket.WebClientRuns
import KubeCenter.GitProvider.RepoRef
import KubeCenter.GitProvider.CommitConfinement
import KubeCenter.GitProvider.Canonical
import KubeCenter.ExternalSecrets.Staleness
import KubeCenter.ExternalSecrets.Reapply
import KubeCenter.ExternalSecrets.Handler
import KubeCenter.CertManager.ThresholdAgreement
import KubeCenter.CertManager.Poller
import KubeCenter.Core.GoSlice
import KubeCenter.ServiceMesh.Aggregation
import KubeCenter.ServiceMesh.MetricOverrides
import KubeCenter.ServiceMesh.Attribution
import KubeCenter.Core.Bfs
import KubeCenter.Diagnostics.Blast
import KubeCenter.Topology.ServiceHosts
import KubeCenter.Topology.MeshCompleteness
import KubeCenter.Resources.Paginate
import KubeCenter.Diagnostics.PodFailure
import KubeCenter.Diagnostics.Honesty
import KubeCenter.Core.JsonPattern
import KubeCenter.Wizard.PolicyParams
import KubeCenter.Wizard.Registries
import KubeCenter.Wizard.EnginesAgree
import KubeCenter.Wizard.NetworkPolicySound
import KubeCenter.Wizard.NamespaceLimitsSound
import KubeCenter.Wizard.SchemaToYamlExact
import KubeCenter.Alerting.WebhookActions
import KubeCenter.Gateway.References
import KubeCenter.Gateway.RouteHealth
import KubeCenter.GitOps.AppSets
import KubeCenter.GitProvider.CommitPartition
import KubeCenter.Audit.PostgresLogger
import KubeCenter.Websocket.MobileClient
import KubeCenter.Wizard.WizardController
import KubeCenter.Auth.InterceptorProtocol
import KubeCenter.Observability.PiiScrubber
import KubeCenter.GitOps.CompositeId
