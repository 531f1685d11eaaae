import Agentbox.Files.Snapshot
import Agentbox.Runtime.Spec

/-! # Host state of a runtime

`runtime/host_state.rs` and the tables of `runtime/profile`: the directories of the host that a
runtime keeps its state in, where they are looked for, and where they are mounted. -/

namespace Agentbox.Runtime.HostState

open Agentbox.Base.Path Agentbox.Base.Errors Agentbox.Files.Snapshot Agentbox.Runtime.Kind
  Agentbox.Runtime.Spec

inductive RuntimeHostStateSource
  | environmentOrHome (environmentVariable : String) (homeRelativeComponents : List String)
  | homeOnly (homeRelativeComponents : List String)
  | xdgOrHome (xdgVariable : String) (xdgRelativeComponents homeRelativeComponents : List String)
  deriving DecidableEq, Repr

inductive RuntimeHostStateDestination
  | fixed (destination : String)
  | sourcePathWhenEnvironment (environmentVariable fallbackDestination : String)
  deriving DecidableEq, Repr

structure RuntimeHostStateContainerEnvironment where
  name : String
  sourceEnvironmentVariable : String
  deriving DecidableEq, Repr

structure RuntimeHostStateMount where
  source : RuntimeHostStateSource
  productName : String
  description : String
  destination : RuntimeHostStateDestination
  containerEnvironment : Option RuntimeHostStateContainerEnvironment
  deriving DecidableEq, Repr

structure RuntimeHostStateSourceResolution where
  source : Option Utf8Path
  sourceEnvironmentVariable : Option String
  deriving DecidableEq, Repr

/-! ### Sources -/

/-- `utf8_join`. -/
def utf8Join (base : OsPath) (components : List String) : Option Utf8Path :=
  match base with
  | .utf8 path => some (components.foldl (fun path component => path.join ⟨component⟩) path)
  | .nonUtf8 _ _ => none

def resolveHomeSource (environment : String → Option OsPath) (homeRelativeComponents : List String) :
    Option Utf8Path :=
  (environment "HOME").bind fun home => utf8Join home homeRelativeComponents

def environmentSource (variable_ : String) (environment : String → Option OsPath) :
    Except Error (Option Utf8Path) :=
  match environment variable_ with
  | none => .ok none
  | some (.utf8 source) => .ok (if source.asStr = "" then none else some source)
  | some (.nonUtf8 _ display) => .error (.msg ("`" ++ variable_ ++
      "` must be a UTF-8 path for Codex server passthrough: " ++ display))

def shellPath (base : String) (components : List String) : String :=
  "/".intercalate (base :: components)

def shellExpression (base : String) (components : List String) : String :=
  "`" ++ shellPath base components ++ "`"

/-- `strip_suffix` of slices. -/
def stripSuffix (l suffix : List String) : Option (List String) :=
  if suffix <:+ l then some (l.take (l.length - suffix.length)) else none

def xdgOrHomeShellExpression (xdgVariable : String)
    (xdgRelativeComponents homeRelativeComponents : List String) : String :=
  match stripSuffix homeRelativeComponents xdgRelativeComponents with
  | some base => shellExpression
      ("$\x7b" ++ xdgVariable ++ ":-" ++ shellPath "$HOME" base ++ "\x7d") xdgRelativeComponents
  | none => shellExpression ("$" ++ xdgVariable) xdgRelativeComponents ++ " or " ++
      shellExpression "$HOME" homeRelativeComponents

namespace RuntimeHostStateSource

def resolve (source : RuntimeHostStateSource) (environment : String → Option OsPath) :
    Except Error RuntimeHostStateSourceResolution :=
  match source with
  | environmentOrHome environmentVariable homeRelativeComponents =>
    match environmentSource environmentVariable environment with
    | .error e => .error e
    | .ok (some source) => .ok ⟨some source, some environmentVariable⟩
    | .ok none => .ok ⟨resolveHomeSource environment homeRelativeComponents, none⟩
  | homeOnly homeRelativeComponents =>
    .ok ⟨resolveHomeSource environment homeRelativeComponents, none⟩
  | xdgOrHome xdgVariable xdgRelativeComponents homeRelativeComponents =>
    .ok ⟨((environment xdgVariable).bind fun base => utf8Join base xdgRelativeComponents).or
      (resolveHomeSource environment homeRelativeComponents), none⟩

def expression : RuntimeHostStateSource → String
  | environmentOrHome environmentVariable homeRelativeComponents =>
    "`" ++ environmentVariable ++ "` or " ++ shellExpression "$HOME" homeRelativeComponents
  | homeOnly homeRelativeComponents => shellExpression "$\x7bHOME\x7d" homeRelativeComponents
  | xdgOrHome xdgVariable xdgRelativeComponents homeRelativeComponents =>
    xdgOrHomeShellExpression xdgVariable xdgRelativeComponents homeRelativeComponents

end RuntimeHostStateSource

/-! ### Destinations -/

namespace RuntimeHostStateDestination

def snapshotKey : RuntimeHostStateDestination → String
  | fixed destination => destination
  | sourcePathWhenEnvironment _ fallbackDestination => fallbackDestination

def resolve (source : Utf8Path) (sourceEnvironmentVariable : Option String) :
    RuntimeHostStateDestination → Except Error String
  | fixed destination => .ok destination
  | sourcePathWhenEnvironment environmentVariable fallbackDestination =>
    if sourceEnvironmentVariable = some environmentVariable then
      if source.isAbsolute then .ok source.asStr
      else .error (.msg ("`" ++ environmentVariable ++
        "` must be an absolute path for Codex server passthrough: " ++ source.asStr))
    else .ok fallbackDestination

end RuntimeHostStateDestination

/-- `entry_for`. -/
def RuntimeHostStateContainerEnvironment.entryFor (env : RuntimeHostStateContainerEnvironment)
    (source : Utf8Path) (sourceEnvironmentVariable : Option String) : Option (String × String) :=
  if sourceEnvironmentVariable = some env.sourceEnvironmentVariable then
    some (env.name, source.asStr)
  else none

def RuntimeHostStateMount.snapshotKey (mount : RuntimeHostStateMount) : String :=
  mount.destination.snapshotKey

def RuntimeHostStateMount.containerEnvironmentFor (mount : RuntimeHostStateMount)
    (source : Utf8Path) (sourceEnvironmentVariable : Option String) : Option (String × String) :=
  mount.containerEnvironment.bind fun env => env.entryFor source sourceEnvironmentVariable

/-! ### Profiles -/

def CODEX_CONFIG_DESTINATION : String := "/home/user/.codex"
def OPENCODE_CONFIG_DESTINATION : String := "/home/user/.config/opencode"
def OPENCODE_DATA_DESTINATION : String := "/home/user/.local/share/opencode"

def CODEX_HOME_ENV : String := "CODEX_HOME"

namespace Codex

def SERVER_HOST_STATE_MOUNTS : List RuntimeHostStateMount :=
  [{ source := .environmentOrHome CODEX_HOME_ENV [".codex"]
     productName := "Codex"
     description := "configuration"
     destination := .sourcePathWhenEnvironment CODEX_HOME_ENV CODEX_CONFIG_DESTINATION
     containerEnvironment := some ⟨CODEX_HOME_ENV, CODEX_HOME_ENV⟩ }]

def FOREGROUND_HOST_STATE_MOUNTS : List RuntimeHostStateMount :=
  [{ source := .homeOnly [".codex"]
     productName := "Codex"
     description := "configuration"
     destination := .fixed CODEX_CONFIG_DESTINATION
     containerEnvironment := none }]

end Codex

namespace Opencode

def HOST_STATE_MOUNTS : List RuntimeHostStateMount :=
  [{ source := .xdgOrHome "XDG_CONFIG_HOME" ["opencode"] [".config", "opencode"]
     productName := "OpenCode"
     description := "configuration"
     destination := .fixed OPENCODE_CONFIG_DESTINATION
     containerEnvironment := none },
   { source := .xdgOrHome "XDG_DATA_HOME" ["opencode"] [".local", "share", "opencode"]
     productName := "OpenCode"
     description := "data"
     destination := .fixed OPENCODE_DATA_DESTINATION
     containerEnvironment := none }]

end Opencode

/-- `RuntimeKind::host_state_mounts`. -/
def hostStateMounts : RuntimeKind → RuntimeRunMode → List RuntimeHostStateMount
  | .codex, .foreground => Codex.FOREGROUND_HOST_STATE_MOUNTS
  | .codex, .managedSession | .codex, .transientServer => Codex.SERVER_HOST_STATE_MOUNTS
  | .opencode, _ => Opencode.HOST_STATE_MOUNTS

theorem containerEnvironment_of_mem {runtime : RuntimeKind} {mode : RuntimeRunMode}
    {mount : RuntimeHostStateMount} {env : RuntimeHostStateContainerEnvironment}
    (h : mount ∈ hostStateMounts runtime mode) (henv : mount.containerEnvironment = some env) :
    env.name = CODEX_HOME_ENV := by
  have hnames : ∀ (runtime : RuntimeKind) (mode : RuntimeRunMode),
      ∀ mount ∈ hostStateMounts runtime mode, ∀ env ∈ mount.containerEnvironment,
        env.name = CODEX_HOME_ENV := by
    intro runtime mode
    cases runtime <;> cases mode <;> decide
  exact hnames runtime mode mount h env henv

end Agentbox.Runtime.HostState
