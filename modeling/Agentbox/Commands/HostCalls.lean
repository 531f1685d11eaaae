import Agentbox.DevEnv.Environment
import Agentbox.Files.Snapshot
import Agentbox.Lib.Program
import Agentbox.Podman.Model
import Agentbox.Runtime.Spec

/-! # What the commands ask of the host

The calls that the lifecycle commands make: Podman, the file system, the workspace locks, the files
of Codex attach tokens, and the checks and detections of the host that only add mounts, environment
and a command wrapper to a launch. -/

namespace Agentbox.Commands.HostCalls

open Agentbox.Base.Path Agentbox.Base.Errors Agentbox.Config.Limits Agentbox.Files.Snapshot
  Agentbox.Lib.Program Agentbox.Metadata.Labels Agentbox.Podman.Model Agentbox.Runtime.Kind
  Agentbox.Runtime.Spec Agentbox.DevEnv.Environment

/-! ### Answers -/

structure PreflightReport where
  hostNixMounts : List RuntimeMount
  runtimeMounts : List RuntimeMount
  runtimeEnvironment : LabelMap

/-- The mounts and the environment that the Wayland, Git and SSH passthroughs add. -/
structure Passthrough where
  mounts : List RuntimeMount
  environment : LabelMap

inductive ServerEndpointContext
  | managedSession
  | transientRunContainer
  deriving DecidableEq, Repr

inductive ServerEndpointWait
  | ready (endpoint : AttachEndpoint)
  | interrupted
  deriving DecidableEq, Repr

/-- A `std::process::ExitStatus`: a code, or none for a signal, and its text. -/
structure ExitStatus where
  code : Option Int
  text : String
  deriving DecidableEq, Repr

def ExitStatus.success (status : ExitStatus) : Bool := status.code == some 0

inductive TokenReadError
  | notFound
  | other (text : String)
  deriving DecidableEq, Repr

/-! ### Operations -/

inductive HostOp
  | readHost
  | ps (managedOnly : Bool)
  | inspectOne (name : String)
  | stopIgnore (containerName : String)
  | containerExists (containerName : String)
  | runDetached (containerName : String) (spec : RuntimeRunSpec)
  | logsTail (containerName : String)
  | volumeExists (volume : String)
  | removeVolume (volume : String)
  | lockGuard (digest64 : String)
  | unlock (digest64 : String)
  | generateToken
  | writeToken (digest64 value : String)
  | readToken (digest64 : String)
  | removeToken (digest64 : String)
  | loadConfig
  | checkHostPrerequisites (runtime : RuntimeKind) (mode : RuntimeRunMode)
  | resolveDevEnvironment (mode : DevEnvMode) (target gitRoot : Utf8Path)
  | which (program : String)
  | ensureDefaultRuntimeImage (runtime : RuntimeKind) (gitRoot : Utf8Path)
  | detectPassthrough (gitRoot : Utf8Path)
  | installInterrupt (commandName : String)
  | interrupted
  | waitForServerEndpoint (containerName : String) (runtime : RuntimeKind)
      (context : ServerEndpointContext)
  | runHostClient (argv : List String) (workdir : Utf8Path) (token : Option String)

def HostOp.Ret : HostOp → Type
  | readHost => Host
  | ps _ => Except Error (List PodmanPsContainer)
  | inspectOne _ => Except Error PodmanContainerInspect
  | stopIgnore _ | runDetached _ _ | removeVolume _ | lockGuard _ | writeToken _ _
  | removeToken _ | installInterrupt _ => Except Error Unit
  | containerExists _ | volumeExists _ => Except Error Bool
  | logsTail _ | generateToken => Except Error String
  | unlock _ => Unit
  | readToken _ => Except TokenReadError String
  | loadConfig => ResourceLimits
  | checkHostPrerequisites _ _ => Except Error PreflightReport
  | resolveDevEnvironment _ _ _ => Except Error DevEnvironment
  | which _ | interrupted => Bool
  | ensureDefaultRuntimeImage _ _ => Except Error (Option String)
  | detectPassthrough _ => Passthrough
  | waitForServerEndpoint _ _ _ => Except Error ServerEndpointWait
  | runHostClient _ _ _ => Except Error ExitStatus

abbrev HostOps : Sig := ⟨HostOp, HostOp.Ret⟩

/-- A command, or a part of one. -/
abbrev Command (α : Type) := Prog HostOps Error α

/-! ### Calls

A call that can fail fails the command. -/

def readHost : Command Host := .call .readHost .done

def ps (managedOnly : Bool) : Command (List PodmanPsContainer) := .call (.ps managedOnly) .ofExcept

def inspectOne (name : String) : Command PodmanContainerInspect := .call (.inspectOne name) .ofExcept

def stopIgnore (containerName : String) : Command Unit := .call (.stopIgnore containerName) .ofExcept

def containerExists (containerName : String) : Command Bool :=
  .call (.containerExists containerName) .ofExcept

def runDetached (containerName : String) (spec : RuntimeRunSpec) : Command Unit :=
  .call (.runDetached containerName spec) .ofExcept

def logsTail (containerName : String) : Command String := .call (.logsTail containerName) .ofExcept

def volumeExists (volume : String) : Command Bool := .call (.volumeExists volume) .ofExcept

def removeVolume (volume : String) : Command Unit := .call (.removeVolume volume) .ofExcept

def lockGuard (digest64 : String) : Command Unit := .call (.lockGuard digest64) .ofExcept

def unlock (digest64 : String) : Command Unit := .call (.unlock digest64) .done

def generateToken : Command String := .call .generateToken .ofExcept

def writeToken (digest64 value : String) : Command Unit := .call (.writeToken digest64 value) .ofExcept

def readToken (digest64 : String) : Command (Except TokenReadError String) :=
  .call (.readToken digest64) .done

def removeToken (digest64 : String) : Command Unit := .call (.removeToken digest64) .ofExcept

def loadConfig : Command ResourceLimits := .call .loadConfig .done

def checkHostPrerequisites (runtime : RuntimeKind) (mode : RuntimeRunMode) :
    Command PreflightReport :=
  .call (.checkHostPrerequisites runtime mode) .ofExcept

def resolveDevEnvironment (mode : DevEnvMode) (target gitRoot : Utf8Path) :
    Command DevEnvironment :=
  .call (.resolveDevEnvironment mode target gitRoot) .ofExcept

def which (program : String) : Command Bool := .call (.which program) .done

def ensureDefaultRuntimeImage (runtime : RuntimeKind) (gitRoot : Utf8Path) :
    Command (Option String) :=
  .call (.ensureDefaultRuntimeImage runtime gitRoot) .ofExcept

def detectPassthrough (gitRoot : Utf8Path) : Command Passthrough :=
  .call (.detectPassthrough gitRoot) .done

def installInterrupt (commandName : String) : Command Unit :=
  .call (.installInterrupt commandName) .ofExcept

def interrupted : Command Bool := .call .interrupted .done

def waitForServerEndpoint (containerName : String) (runtime : RuntimeKind)
    (context : ServerEndpointContext) : Command ServerEndpointWait :=
  .call (.waitForServerEndpoint containerName runtime context) .ofExcept

def runHostClient (argv : List String) (workdir : Utf8Path) (token : Option String) :
    Command ExitStatus :=
  .call (.runHostClient argv workdir token) .ofExcept

end Agentbox.Commands.HostCalls
