import Agentbox.Lib.Json
import Agentbox.Runtime.Kind
import Agentbox.Workspace.Identity

/-! # The labels of a server container

What `start` and `run` write on a container, as in `metadata/session.rs`. -/

namespace Agentbox.Metadata.Session

open Agentbox.Lib.Json Agentbox.Metadata.Labels Agentbox.Runtime.Kind Agentbox.Workspace.Identity

structure ManagedSessionLabelInput where
  canonicalGitRoot : String
  gitRootHash : String
  runtime : RuntimeKind
  image : String
  launchDirectory : String
  logicalName : String
  serverArgs : List String
  deriving DecidableEq

def ManagedSessionLabelInput.fromWorkspace (workspace : WorkspaceIdentity) (image : String)
    (runtime : RuntimeKind) (serverArgs : List String) : ManagedSessionLabelInput where
  canonicalGitRoot := workspace.canonicalGitRoot.asStr
  gitRootHash := workspace.hash12
  runtime
  image
  launchDirectory := workspace.canonicalTarget.asStr
  logicalName := workspace.containerName
  serverArgs

def runtimeServerContainerLabels (input : ManagedSessionLabelInput) : LabelMap :=
  let attach := input.runtime.attachSpec
  .ofList
    [(LABEL_GIT_ROOT, input.canonicalGitRoot),
     (LABEL_GIT_ROOT_HASH, input.gitRootHash),
     (LABEL_RUNTIME, input.runtime.asStr),
     (LABEL_IMAGE, input.image),
     (LABEL_LAUNCH_DIRECTORY, input.launchDirectory),
     (LABEL_LOGICAL_NAME, input.logicalName),
     (LABEL_ATTACH_SCHEME, attach.scheme),
     (LABEL_CONTAINER_PORT, s!"{attach.containerPort}"),
     (LABEL_CONTAINER_LISTEN_IP, attach.containerListenIp)]

def managedSessionLabels (input : ManagedSessionLabelInput) : LabelMap :=
  let labels := ((runtimeServerContainerLabels input).insert LABEL_MANAGED LABEL_MANAGED_VALUE
    |>.insert LABEL_CONTAINER_KIND LABEL_CONTAINER_KIND_MANAGED_SESSION_VALUE
    |>.insert LABEL_SCHEMA LABEL_SCHEMA_VALUE)
  if input.serverArgs = [] then labels
  else labels.insert LABEL_SERVER_ARGS (encodeStrings input.serverArgs)

def transientRunLabels (input : ManagedSessionLabelInput) : LabelMap :=
  (runtimeServerContainerLabels input).insert LABEL_CONTAINER_KIND
    LABEL_CONTAINER_KIND_TRANSIENT_RUN_VALUE

/-- `runtime_package_version_label`. -/
def runtimePackageVersionLabel (runtime : RuntimeKind) : String :=
  "io.agentbox." ++ runtime.asStr ++ ".version"

end Agentbox.Metadata.Session
