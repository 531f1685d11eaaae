import Agentbox.Lib.Transition
import Agentbox.Lib.Program
import Agentbox.Base.Text
import Agentbox.Base.Digest
import Agentbox.Metadata.Labels
import Agentbox.Base.Errors
import Agentbox.Base.Path
import Agentbox.Runtime.Kind
import Agentbox.Config.Limits
import Agentbox.Podman.Model
import Agentbox.Files.Snapshot
import Agentbox.Workspace.Identity
import Agentbox.Lib.Json
import Agentbox.Lib.Delimited
import Agentbox.Lib.NixText
import Agentbox.Lib.NixInstallable
import Agentbox.Lib.Resolution
import Agentbox.Metadata.Session
import Agentbox.Runtime.Spec
import Agentbox.Runtime.MountOptions
import Agentbox.Runtime.HttpProbe
import Agentbox.Runtime.HttpChunks
import Agentbox.Runtime.HostState
import Agentbox.Preflight.Path
import Agentbox.Preflight.Snapshot
import Agentbox.Session.Record
import Agentbox.Session.Inspected
import Agentbox.Session.Status
import Agentbox.Session.Discovery
import Agentbox.Session.Collected
import Agentbox.Session.ScopedDiscovery
import Agentbox.Lib.Entries
import Agentbox.Lib.NumberedEntries
import Agentbox.Lock.Model
import Agentbox.Lock.Exclusion
import Agentbox.Podman.State
import Agentbox.Session.Conflict
import Agentbox.Session.Connectable
import Agentbox.Session.Views
import Agentbox.Session.ConnectView
import Agentbox.Session.StableIds
import Agentbox.Session.RootContainers
import Agentbox.Session.Attribution
import Agentbox.DevEnv.Environment
import Agentbox.DevEnv.Nix
import Agentbox.Commands.HostCalls
import Agentbox.Preflight.Check
import Agentbox.Preflight.MountRoot
import Agentbox.Session.Restartable
import Agentbox.Session.Target
import Agentbox.Commands.CodexAttachAuth
import Agentbox.Commands.ContainerCleanup
import Agentbox.Commands.RuntimeCommand
import Agentbox.Commands.WorkspaceFlow
import Agentbox.Commands.ContainerLaunch
import Agentbox.SshSigning.SigningKey
import Agentbox.SshSigning.GitConfig
import Agentbox.SshSigning.HostPassthrough
import Agentbox.Commands.MountDestinations
import Agentbox.Commands.DetachedServer
import Agentbox.Commands.Connect
import Agentbox.Commands.Restart
import Agentbox.Commands.Start
import Agentbox.Commands.Stop
import Agentbox.Commands.LaunchLabels
import Agentbox.Commands.Quiet
import Agentbox.Commands.RoundTrip
import Agentbox.Commands.World
import Agentbox.Commands.Obliging
import Agentbox.Session.TargetView
import Agentbox.Commands.RestartSafety
import Agentbox.Commands.LockIdentity
import Agentbox.Session.DuplicateMarking
import Agentbox.Commands.RestartLimits
import Agentbox.Session.Candidate
import Agentbox.Clean.Inventory
import Agentbox.Workspace.ContainerName
import Agentbox.Clean.Plan
import Agentbox.Commands.TransientRun
import Agentbox.Image.State
import Agentbox.Lib.Interleaving
import Agentbox.Image.Lifecycle
import Agentbox.Image.Codec
import Agentbox.Image.Truthful
import Agentbox.Image.SelfHealing
import Agentbox.Commands.StopAll
import Agentbox.Commands.Interrupts
import Agentbox.Commands.StopCompleteness
import Agentbox.Lib.PrefixCode
import Agentbox.Image.ContextHash
import Agentbox.Lib.SeparatedList
import Agentbox.Image.ProfileEnv
import Agentbox.Image.GitIdentity
import Agentbox.Base.Trim
import Agentbox.SshSigning.KeyLiteral
import Agentbox.Workspace.Toplevel
import Agentbox.Base.CanonicalPath
import Agentbox.DevEnv.Discovery
import Agentbox.DevEnv.Selection
import Agentbox.Commands.ServerReadiness
import Agentbox.Lib.Directory
import Agentbox.Config.Load
import Agentbox.Config.Backup
import Agentbox.Lib.FirstOccurrences
import Agentbox.Lib.GitRemote
import Agentbox.SshSigning.RemoteHost
import Agentbox.SshSigning.KnownHosts
import Agentbox.Commands.SingleServer
import Agentbox.Commands.StopIsolation
import Agentbox.Commands.LockProtocol
import Agentbox.Commands.RestartPreserves
import Agentbox.Commands.TokenAgreement
import Agentbox.Clean.Deletions
import Agentbox.Commands.StopTargets
import Agentbox.Lib.CommandLine
import Agentbox.Podman.RunArgs
import Agentbox.Commands.LaunchArgs
import Agentbox.Lib.RelyGuarantee
import Agentbox.Session.Staggered
import Agentbox.Commands.AmongOthers
import Agentbox.Commands.ConcurrentServers
import Agentbox.Lib.Success
import Agentbox.Commands.Kindly
import Agentbox.Commands.Lifecycle
import Agentbox.Lib.Requirements
import Agentbox.Preflight.HostRequirements
import Agentbox.Session.HealthTarget
import Agentbox.Commands.Health
import Agentbox.Lib.Settings
import Agentbox.SshSigning.SshLookups
import Agentbox.Commands.Observed
