import Agentbox.Config.Limits
import Agentbox.Metadata.Session

/-! # Run specifications

What a container is started with: `RuntimeKind::run_spec` and the parts it is built from. -/

namespace Agentbox.Runtime.Spec

open Agentbox.Base.Path Agentbox.Config.Limits Agentbox.Metadata.Labels Agentbox.Metadata.Session
  Agentbox.Runtime.Kind Agentbox.Workspace.Identity

def NIX_CACHE_DESTINATION : String := "/home/user"

/-- `image_context_hash` of the files under `assets/image`. -/
def DEFAULT_IMAGE_CONTEXT_HASH : String := "c248e35f28c74d45"

inductive RuntimeMountKind
  | bind
  | volume
  deriving DecidableEq, Repr

structure RuntimeMount where
  kind : RuntimeMountKind
  source : String
  destination : String
  readOnly : Bool := false
  deriving DecidableEq, Repr

structure RuntimeInvocation where
  argv : List String
  workdir : Utf8Path

structure RuntimeCreateSpec where
  image : String
  labels : LabelMap
  mounts : List RuntimeMount
  command : List String
  defaultEnv : LabelMap
  publishedPorts : List String
  resourceLimits : ResourceLimits

structure RuntimeRunSpec where
  create : RuntimeCreateSpec
  workdir : Utf8Path

inductive RuntimeRunMode
  | managedSession
  | transientServer
  | foreground
  deriving DecidableEq, Repr

def RuntimeRunMode.publishesAttachEndpoint : RuntimeRunMode → Bool
  | managedSession | transientServer => true
  | foreground => false

def RuntimeCreateSpec.logicalName (spec : RuntimeCreateSpec) : Option String :=
  requiredLabelValue spec.labels LABEL_LOGICAL_NAME

namespace RuntimeRunSpec

def insertCreateLabel (spec : RuntimeRunSpec) (name value : String) : RuntimeRunSpec :=
  { spec with create := { spec.create with labels := spec.create.labels.insert name value } }

def addCreateMounts (spec : RuntimeRunSpec) (mounts : List RuntimeMount) : RuntimeRunSpec :=
  { spec with create := { spec.create with mounts := spec.create.mounts ++ mounts } }

def extendCreateDefaultEnv (spec : RuntimeRunSpec) (env : LabelMap) : RuntimeRunSpec :=
  { spec with create := { spec.create with defaultEnv := spec.create.defaultEnv ∪ env } }

end RuntimeRunSpec

/-- `runtime_mounts_for_workspace`. -/
def runtimeMountsForWorkspace (workspace : WorkspaceIdentity)
    (hostNixMounts runtimeMounts : List RuntimeMount) : List RuntimeMount :=
  { kind := .bind, source := workspace.canonicalGitRoot.asStr,
    destination := workspace.canonicalGitRoot.asStr } ::
  { kind := .volume, source := workspace.containerName, destination := NIX_CACHE_DESTINATION } ::
  (hostNixMounts ++ runtimeMounts)

def defaultImage (runtime : RuntimeKind) : String :=
  "localhost/agentbox-" ++ runtime.asStr ++ ":ctx-" ++ DEFAULT_IMAGE_CONTEXT_HASH

def defaultEnv : RuntimeKind → LabelMap
  | .opencode => .ofList [("OPENCODE_CONFIG_CONTENT", "\x7b\"autoupdate\":false\x7d"),
      ("OPENCODE_PERMISSION", "\x7b\"*\":\"allow\"\x7d")]
  | .codex => ∅

/-- `RuntimeKind::create_spec`. -/
def createSpec (runtime : RuntimeKind) (mode : RuntimeRunMode) (workspace : WorkspaceIdentity)
    (hostNixMounts runtimeMounts : List RuntimeMount) (command serverArgs : List String)
    (resourceLimits : ResourceLimits) : RuntimeCreateSpec :=
  let image := defaultImage runtime
  let labelInput := ManagedSessionLabelInput.fromWorkspace workspace image runtime serverArgs
  { image
    labels := match mode with
      | .managedSession => managedSessionLabels labelInput
      | .transientServer => transientRunLabels labelInput
      | .foreground => ∅
    mounts := runtimeMountsForWorkspace workspace hostNixMounts runtimeMounts
    command
    defaultEnv := defaultEnv runtime
    publishedPorts := if mode.publishesAttachEndpoint then
        [DEFAULT_HOST_ATTACH_IP ++ s!"::{runtime.attachSpec.containerPort}"]
      else []
    resourceLimits }

/-- `RuntimeKind::run_spec`. -/
def runSpec (runtime : RuntimeKind) (mode : RuntimeRunMode) (workspace : WorkspaceIdentity)
    (hostNixMounts runtimeMounts : List RuntimeMount) (invocation : RuntimeInvocation)
    (serverArgs : List String) (resourceLimits : ResourceLimits) : RuntimeRunSpec where
  create := createSpec runtime mode workspace hostNixMounts runtimeMounts invocation.argv serverArgs
    resourceLimits
  workdir := invocation.workdir

/-! ### Podman's mount options -/

/-- `render_mount`. -/
def renderMount (mount : RuntimeMount) : String :=
  let kind := match mount.kind with
    | .bind => "bind"
    | .volume => "volume"
  ",".intercalate (["type=" ++ kind, "src=" ++ mount.source, "dst=" ++ mount.destination] ++
    (if mount.readOnly then ["ro"] else []) ++ (if mount.kind = .volume then ["U"] else []))

/-- `append_common_run_args`. -/
def commonRunArgs (containerName : String) (spec : RuntimeRunSpec) (hostGid : Nat) : List String :=
  ["--name", containerName, "--userns", s!"keep-id:uid=1000,gid={hostGid}", "--user",
    s!"user:{hostGid}", "--group-add", "keep-groups", "--workdir", spec.workdir.asStr] ++
  spec.create.labels.toList.flatMap (fun l => ["--label", l.1 ++ "=" ++ l.2]) ++
  spec.create.mounts.flatMap (fun mount => ["--mount", renderMount mount]) ++
  spec.create.defaultEnv.toList.flatMap (fun e => ["--env", e.1 ++ "=" ++ e.2]) ++
  spec.create.resourceLimits.podmanArgs ++
  spec.create.publishedPorts.flatMap (fun port => ["--publish", port]) ++
  spec.create.image :: spec.create.command

end Agentbox.Runtime.Spec
