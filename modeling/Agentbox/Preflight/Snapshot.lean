import Agentbox.Preflight.Path
import Agentbox.Runtime.HostState

/-! # Preflight snapshots

`preflight/snapshot`: what is looked up on the host before a launch. -/

namespace Agentbox.Preflight.Snapshot

open Agentbox.Base.Path Agentbox.Base.Errors Agentbox.Files.Snapshot Agentbox.Lib.Resolution
  Agentbox.Preflight.Path Agentbox.Runtime.HostState Agentbox.Runtime.Kind Agentbox.Runtime.Spec

def NIX_DAEMON_SOCKET_PATH : String := "/nix/var/nix/daemon-socket/socket"
def NIX_STORE_DESTINATION : String := "/nix"
def NIX_CLIENT_DESTINATION : String := "/usr/local/bin/nix"
def ETC_NIX_DESTINATION : String := "/etc/nix"
def ETC_STATIC_NIX_DESTINATION : String := "/etc/static/nix"
def NIX_CUSTOM_CONF_PATH : String := "/etc/nix/nix.custom.conf"

/-! ### The host -/

structure HostPathStatus where
  exists_ : Bool := false
  isDirectory : Bool := false
  readable : Bool := false
  writable : Bool := false
  searchable : Bool := false
  deriving DecidableEq, Repr

/-- What `SystemPreflightHost` asks; `environment` is `std::env::var_os`. -/
structure PreflightHost where
  environment : String → Option OsPath
  which : String → Option OsPath
  unixSocketExists : Utf8Path → Bool
  fileIsReadable : List Component → Bool
  pathStatus : Utf8Path → HostPathStatus
  files : FileSystem

namespace PreflightHost

variable (host : PreflightHost)

def testFixturesEnabled : Bool := (host.environment "AGENTBOX_TEST_FIXTURES").isSome

def commandExists (program : String) : Bool := (host.which program).isSome

def pathFromEnvironment (variable_ : String) : Option OsPath :=
  (host.environment variable_).filter fun value => value ≠ .utf8 ⟨""⟩

def whichUtf8 (program : String) : Option Utf8Path :=
  match host.which program with
  | some (.utf8 path) => some path
  | _ => none

end PreflightHost

/-! ### Snapshots -/

structure HostDirectoryPreflightSnapshot where
  source : Option Utf8Path
  sourceEnvironmentVariable : Option String
  sourceError : Option String
  exists_ : Bool
  isDirectory : Bool
  readable : Bool
  writable : Bool
  searchable : Bool
  deriving DecidableEq, Repr

structure HostPreflightSnapshot where
  hasGit : Bool
  hasPodman : Bool
  runtimeState : Std.ExtTreeMap String HostDirectoryPreflightSnapshot compare

structure NixCustomConfPreflightSnapshot where
  present : Bool
  hasReadableTarget : Bool
  needsStaticMount : Bool
  deriving DecidableEq, Repr

structure NixConfigPreflightSnapshot where
  hasEtcNixMount : Bool
  hasReadableNixConf : Bool
  customConf : NixCustomConfPreflightSnapshot
  deriving DecidableEq, Repr

structure NixPreflightSnapshot where
  hasDaemonSocket : Bool
  clientSource : Option Utf8Path
  config : NixConfigPreflightSnapshot
  deriving DecidableEq, Repr

structure PreflightSnapshot where
  host : HostPreflightSnapshot
  nix : NixPreflightSnapshot

/-! ### Detection -/

section
variable (host : PreflightHost)

def HostDirectoryPreflightSnapshot.detectWith (source : Option Utf8Path)
    (sourceEnvironmentVariable : Option String) : HostDirectoryPreflightSnapshot :=
  let status := (source.map host.pathStatus).getD {}
  { source, sourceEnvironmentVariable, sourceError := none, exists_ := status.exists_,
    isDirectory := status.isDirectory, readable := status.readable, writable := status.writable,
    searchable := status.searchable }

def HostDirectoryPreflightSnapshot.detectError (error : Error) : HostDirectoryPreflightSnapshot where
  source := none
  sourceEnvironmentVariable := none
  sourceError := some error.display
  exists_ := false
  isDirectory := false
  readable := false
  writable := false
  searchable := false

def detectHostState (mount : RuntimeHostStateMount) : HostDirectoryPreflightSnapshot :=
  match mount.source.resolve host.pathFromEnvironment with
  | .ok resolution => .detectWith host resolution.source resolution.sourceEnvironmentVariable
  | .error error => .detectError error

def detectRuntimeState (runtime : RuntimeKind) (runMode : RuntimeRunMode) :
    Std.ExtTreeMap String HostDirectoryPreflightSnapshot compare :=
  .ofList ((hostStateMounts runtime runMode).map fun mount =>
    (mount.snapshotKey, detectHostState host mount))

def HostPreflightSnapshot.detect (runtime : RuntimeKind) (runMode : RuntimeRunMode) :
    HostPreflightSnapshot where
  hasGit := host.testFixturesEnabled || host.commandExists "git"
  hasPodman := host.commandExists "podman"
  runtimeState := detectRuntimeState host runtime runMode

def NixCustomConfPreflightSnapshot.detect : NixCustomConfPreflightSnapshot where
  present := symlinkOrPathExists host.files ⟨NIX_CUSTOM_CONF_PATH⟩
  hasReadableTarget := host.fileIsReadable (resolvePath host.files ⟨NIX_CUSTOM_CONF_PATH⟩)
  needsStaticMount := pathReachesMountRoot host.files ⟨NIX_CUSTOM_CONF_PATH⟩
    ⟨ETC_STATIC_NIX_DESTINATION⟩

def NixConfigPreflightSnapshot.detect : NixConfigPreflightSnapshot where
  hasEtcNixMount := host.testFixturesEnabled || symlinkOrPathExists host.files ⟨ETC_NIX_DESTINATION⟩
  hasReadableNixConf := host.testFixturesEnabled ||
    host.fileIsReadable (lookupComponents ⟨"/etc/nix/nix.conf"⟩)
  customConf := .detect host

def resolveNixClientSource : Option Utf8Path :=
  if host.testFixturesEnabled then some ⟨"/usr/bin/nix"⟩ else host.whichUtf8 "nix"

def NixPreflightSnapshot.detect : NixPreflightSnapshot where
  hasDaemonSocket := host.testFixturesEnabled || host.unixSocketExists ⟨NIX_DAEMON_SOCKET_PATH⟩
  clientSource := resolveNixClientSource host
  config := .detect host

def PreflightSnapshot.detect (runtime : RuntimeKind) (runMode : RuntimeRunMode) :
    PreflightSnapshot where
  host := .detect host runtime runMode
  nix := .detect host

end

end Agentbox.Preflight.Snapshot
