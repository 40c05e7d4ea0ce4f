import Uptrakit.Access.Lockout
import Uptrakit.Auth.DeviceLogin
import Uptrakit.Auth.SpentOnce
import Uptrakit.Auth.SessionEnd
import Uptrakit.Auth.RateLimit
import Uptrakit.Oauth.AuthorizationCode
import Uptrakit.Oauth.RefreshFamily
import Uptrakit.Pki.ActiveCa
import Uptrakit.Pki.CrlSwap
import Uptrakit.Pki.CrlCache
import Uptrakit.Update.Reaper
import Uptrakit.Update.Output
import Uptrakit.Update.Queue
import Uptrakit.Plugin.Apk
import Uptrakit.Plugin.Command
import Uptrakit.Plugin.ImageRef
import Uptrakit.Plugin.RegistryAuth
import Uptrakit.Plugin.Release
import Uptrakit.Plugin.SecretPaths
import Uptrakit.Plugin.SparseIndex
import Uptrakit.Plugin.Version
import Uptrakit.Agent.BatchUpdate
import Uptrakit.Agent.Channels
import Uptrakit.Agent.InteractiveOutput
import Uptrakit.Agent.OutputOrder
import Uptrakit.Agent.Sudoers
import Uptrakit.Discovery.Presence
import Uptrakit.Mqtt.Retained
import Uptrakit.Mqtt.FullStates
import Uptrakit.Wire.Connection
import Uptrakit.Wire.Receive
import Uptrakit.Pki.CertRenewal
import Uptrakit.Workload.Idle
import Uptrakit.Workload.Indexes
import Uptrakit.Workload.Agreement
import Uptrakit.Scheduler.VersionChecks
import Uptrakit.Settings.OptimisticLocking
import Uptrakit.Crypto.Reencryption
import Uptrakit.Agent.Updates
import Uptrakit.Surfaces.CachedReplies
import Uptrakit.Sessions.Finalization
import Uptrakit.Access.Visibility
import Uptrakit.Workload.Replacement
import Uptrakit.Scheduler.Lease
import Uptrakit.Net.ProviderUrl
import Uptrakit.Net.ProxyHeaders
import Uptrakit.Net.MaskedUrl
import Uptrakit.Oauth.RefreshChain
import Uptrakit.Reload.TlsSnapshot
import Uptrakit.Reload.VersionCache
