import Agentbox.Commands.Connect
import Agentbox.Commands.Restart
import Agentbox.Commands.Start
import Agentbox.Commands.Stop

/-! # Quiet parts

The parts of the commands that only read, and those that change nothing that another part reads: no
container, no token and no lock. -/

namespace Agentbox.Commands.Quiet

open Agentbox.Base.Path Agentbox.Base.Errors Agentbox.Config.Limits Agentbox.Files.Snapshot
  Agentbox.Lib.Program Agentbox.Podman.Model Agentbox.Runtime.Kind Agentbox.Runtime.Spec
  Agentbox.Workspace.Identity Agentbox.Session.Record Agentbox.Session.Discovery
  Agentbox.Session.Collected Agentbox.Session.Views Agentbox.Session.Selection
  Agentbox.Session.Conflict Agentbox.Session.Target Agentbox.Commands.HostCalls
  Agentbox.Commands.WorkspaceFlow Agentbox.Commands.CodexAttachAuth
  Agentbox.Commands.ContainerCleanup Agentbox.Commands.RuntimeCommand
  Agentbox.Commands.ContainerLaunch Agentbox.Commands.DetachedServer Agentbox.DevEnv.Environment

/-- The operation only looks at the host, or checks it. -/
def isReading : HostOp → Bool
  | .stopIgnore _ | .containerExists _ | .runDetached _ _ | .removeVolume _ | .lockGuard _
  | .unlock _ | .writeToken _ _ | .removeToken _ | .interrupted => false
  | _ => true

/-- Only reading operations are called. -/
def IsReading {α : Type} (p : Command α) : Prop :=
  Always (S := HostOps) (fun o => isReading o = true) (fun _ => True) p

/-- The operation changes no container, no token and no lock. -/
def isQuiet : HostOp → Bool
  | .stopIgnore _ | .runDetached _ _ | .lockGuard _ | .unlock _ | .writeToken _ _
  | .removeToken _ => false
  | _ => true

/-- Only quiet operations are called. -/
def IsQuiet {α : Type} (p : Command α) : Prop :=
  Always (S := HostOps) (fun o => isQuiet o = true) (fun _ => True) p

variable {α β : Type}

theorem reading_done (a : α) : IsReading (.done a) := trivial

theorem reading_fail (e : Error) : IsReading (.fail e : Command α) := trivial

theorem reading_ofExcept (r : Except Error α) : IsReading (Prog.ofExcept r) :=
  (always_ofExcept r _).2 trivial

theorem IsReading.bind {p : Command α} {f : α → Command β} (hp : IsReading p)
    (hf : ∀ a, IsReading (f a)) : IsReading (p >>= f) :=
  always_bind hp (fun _ _ => trivial) fun a _ => hf a

theorem IsReading.attempt {p : Command α} (hp : IsReading p) : IsReading p.attempt :=
  always_mono (always_attempt hp) fun _ _ => trivial

theorem isQuiet_of_isReading : ∀ {o : HostOp}, isReading o = true → isQuiet o = true
  | o, h => by cases o <;> first | rfl | cases h

theorem IsReading.quiet {p : Command α} (hp : IsReading p) : IsQuiet p :=
  Only.weaken hp fun _ => isQuiet_of_isReading

theorem quiet_ofExcept (r : Except Error α) : IsQuiet (Prog.ofExcept r) := (reading_ofExcept r).quiet

theorem IsQuiet.bind {p : Command α} {f : α → Command β} (hp : IsQuiet p)
    (hf : ∀ a, IsQuiet (f a)) : IsQuiet (p >>= f) :=
  always_bind hp (fun _ _ => trivial) fun a _ => hf a

theorem IsQuiet.attempt {p : Command α} (hp : IsQuiet p) : IsQuiet p.attempt :=
  always_mono (always_attempt hp) fun _ _ => trivial

/-! ### Operations -/

theorem reading_readHost : IsReading readHost := ⟨rfl, reading_done⟩

theorem reading_ps (managedOnly : Bool) : IsReading (ps managedOnly) := ⟨rfl, reading_ofExcept⟩

theorem reading_inspectOne (name : String) : IsReading (inspectOne name) := ⟨rfl, reading_ofExcept⟩

theorem reading_logsTail (name : String) : IsReading (logsTail name) := ⟨rfl, reading_ofExcept⟩

theorem reading_volumeExists (volume : String) : IsReading (volumeExists volume) :=
  ⟨rfl, reading_ofExcept⟩

theorem reading_generateToken : IsReading generateToken := ⟨rfl, reading_ofExcept⟩

theorem reading_readToken (digest64 : String) : IsReading (readToken digest64) := ⟨rfl, reading_done⟩

theorem reading_loadConfig : IsReading loadConfig := ⟨rfl, reading_done⟩

theorem reading_checkHostPrerequisites (runtime : RuntimeKind) (mode : RuntimeRunMode) :
    IsReading (checkHostPrerequisites runtime mode) := ⟨rfl, reading_ofExcept⟩

theorem reading_resolveDevEnvironment (mode : DevEnvMode) (target gitRoot : Utf8Path) :
    IsReading (resolveDevEnvironment mode target gitRoot) := ⟨rfl, reading_ofExcept⟩

theorem reading_which (program : String) : IsReading (which program) := ⟨rfl, reading_done⟩

theorem reading_ensureDefaultRuntimeImage (runtime : RuntimeKind) (gitRoot : Utf8Path) :
    IsReading (ensureDefaultRuntimeImage runtime gitRoot) := ⟨rfl, reading_ofExcept⟩

theorem reading_detectPassthrough (gitRoot : Utf8Path) : IsReading (detectPassthrough gitRoot) :=
  ⟨rfl, reading_done⟩

theorem reading_installInterrupt (commandName : String) : IsReading (installInterrupt commandName) :=
  ⟨rfl, reading_ofExcept⟩

theorem reading_waitForServerEndpoint (name : String) (runtime : RuntimeKind)
    (context : ServerEndpointContext) : IsReading (waitForServerEndpoint name runtime context) :=
  ⟨rfl, reading_ofExcept⟩

theorem reading_runHostClient (argv : List String) (workdir : Utf8Path) (token : Option String) :
    IsReading (runHostClient argv workdir token) := ⟨rfl, reading_ofExcept⟩

/-! ### Discovery -/

theorem reading_inspectAll (probe : GitRootProbe) : ∀ l, IsReading (inspectAll inspectOne probe l)
  | [] => reading_done _
  | (c, _) :: l => (reading_inspectOne c.id).bind fun _ => (reading_inspectAll probe l).bind fun _ =>
      reading_done _

theorem reading_discover (scope : SessionDiscoveryScope) (containerScope : ContainerDiscoveryScope) :
    IsReading (discover scope containerScope) := by
  refine (reading_ps _).bind fun containers => reading_readHost.bind fun host => ?_
  rw [discoverSessionsFromPs_eq]
  exact (reading_inspectAll _ _).bind fun _ => reading_ofExcept _

theorem reading_resolveWorkspace (directory : OsPath) : IsReading (resolveWorkspace directory) :=
  reading_readHost.bind fun _ => reading_ofExcept _

theorem reading_existingSessionError (workspace : WorkspaceIdentity) (session : SessionRecord) :
    IsReading (existingSessionError inspectOne workspace session) := by
  unfold existingSessionError
  split
  · exact reading_done _
  · exact reading_done _
  · exact reading_done _
  · exact reading_done _
  · refine (reading_inspectOne _).attempt.bind fun inspect => ?_
    split
    · exact reading_done _
    · exact reading_done _

theorem reading_ensureRequiredResourcesAbsent (workspace : WorkspaceIdentity)
    (check : ExistingResourceCheck) :
    IsReading (ensureRequiredResourcesAbsent workspace check) := by
  unfold ensureRequiredResourcesAbsent
  split
  · exact reading_done _
  · next scope =>
    have hdiscover : IsReading (discoverExistingResources workspace scope) := by
      unfold discoverExistingResources
      split
      · exact reading_discover _ _
      · exact reading_discover _ _
    refine hdiscover.bind fun sessions => (reading_ofExcept _).bind fun selected => ?_
    split
    · exact reading_done _
    · exact (reading_existingSessionError _ _).bind fun e => reading_fail e

/-! ### Errors and clients -/

theorem reading_errorWithContainerLogs (workspace : WorkspaceIdentity)
    (context : ContainerLogContext) (error : Error) :
    IsReading (errorWithContainerLogs workspace context error) := by
  refine (reading_logsTail _).attempt.bind fun logs => ?_
  split
  · split_ifs
    · exact reading_done _
    · exact reading_done _
  · exact reading_done _

theorem reading_classifyManagedServerCreateError (workspace : WorkspaceIdentity)
    (spec : RuntimeRunSpec) (action : String) (error : Error) :
    IsReading (classifyManagedServerCreateError workspace spec action error) := by
  refine (reading_inspectOne _).attempt.bind fun inspect => ?_
  split
  · exact reading_done _
  · exact reading_errorWithContainerLogs _ _ _

theorem reading_ensureHostRuntimeClientAvailable (runtime : RuntimeKind) :
    IsReading (ensureHostRuntimeClientAvailable runtime) := by
  unfold ensureHostRuntimeClientAvailable
  simp only
  split
  · exact reading_fail _
  · refine (reading_which _).bind fun found => ?_
    split_ifs
    · exact reading_done _
    · exact reading_fail _

theorem reading_runHostRuntimeClientStatus (runtime : RuntimeKind) (endpoint : AttachEndpoint)
    (launchDirectory : Utf8Path) (token : Option CodexAttachToken) (clientArgs : List String) :
    IsReading (runHostRuntimeClientStatus runtime endpoint launchDirectory token clientArgs) :=
  (reading_ofExcept _).bind fun _ => reading_runHostClient _ _ _

theorem reading_runHostRuntimeClient (runtime : RuntimeKind) (endpoint : AttachEndpoint)
    (launchDirectory : Utf8Path) (token : Option CodexAttachToken) (clientArgs : List String) :
    IsReading (runHostRuntimeClient runtime endpoint launchDirectory token clientArgs) := by
  refine (reading_runHostRuntimeClientStatus _ _ _ _ _).bind fun status => ?_
  split_ifs
  · exact reading_done _
  · exact reading_fail _

/-! ### Launches -/

theorem reading_prepareContainerLaunchForWorkspace (request : RuntimeLaunchRequest) :
    IsReading (prepareContainerLaunchForWorkspace request) := by
  refine (reading_checkHostPrerequisites _ _).bind fun preflight =>
    (reading_ensureRequiredResourcesAbsent _ _).bind fun _ =>
    (reading_resolveDevEnvironment _ _ _).bind fun devEnv => ?_
  have hrest : IsReading (do
      let version ← ensureDefaultRuntimeImage request.runtime request.workspace.canonicalGitRoot
      return ⟨preflight, devEnv, version⟩ : Command ContainerLaunchPreparation) :=
    (reading_ensureDefaultRuntimeImage _ _).bind fun _ => reading_done _
  split_ifs
  · exact (reading_ensureHostRuntimeClientAvailable _).bind fun _ => hrest
  · exact hrest

/-! ### Targets -/

theorem reading_resolveRestart (target : SessionTargetInput) :
    IsReading (RestartSessionTargetPlan.resolve readHost discoverAgentboxContainers target) := by
  refine reading_readHost.bind fun host => (reading_ofExcept _).bind fun resolved => ?_
  split
  · exact reading_done _
  · exact reading_done _
  · exact (reading_discover _ _).bind fun _ => (reading_ofExcept _).bind fun _ =>
      (reading_ofExcept _).bind fun _ => reading_done _

theorem reading_selectSessionCandidate (plan : RestartSessionTargetPlan) (gitRoot : Utf8Path) :
    IsReading (plan.selectSessionCandidate readHost (discoverSessions gitRoot)
      discoverAgentboxContainers gitRoot) := by
  refine IsReading.bind ?_ fun _ => reading_ofExcept _
  refine reading_readHost.bind fun host => (reading_ofExcept _).bind fun resolved => ?_
  split
  · exact (reading_ofExcept _).bind fun _ => reading_discover _ _
  · exact (reading_ofExcept _).bind fun _ => (reading_discover _ _).bind fun _ => reading_done _
  · exact (reading_discover _ _).bind fun _ => (reading_ofExcept _).bind fun _ =>
      (reading_ofExcept _).bind fun _ => reading_done _

theorem reading_resolveStop (target : SessionTargetInput) :
    IsReading (StopSessionTargetPlan.resolve readHost discoverAgentboxContainers target) := by
  refine reading_readHost.bind fun host => (reading_ofExcept _).bind fun resolved => ?_
  split
  · exact reading_done _
  · exact reading_done _
  · exact (reading_discover _ _).bind fun _ => (reading_ofExcept _).bind fun _ =>
      (reading_ofExcept _).bind fun _ => reading_done _

theorem reading_restartLaunchWorkspace (gitRoot : Utf8Path) (session : SessionRecord)
    (launchDirectory : Utf8Path) :
    IsReading (Restart.restartLaunchWorkspace gitRoot session launchDirectory) :=
  reading_readHost.bind fun _ => reading_ofExcept _

theorem reading_restartResourceLimits (session : SessionRecord)
    (overrides : ResourceLimitOverrides) :
    IsReading (Restart.restartResourceLimits session overrides) :=
  reading_loadConfig.bind fun _ => (reading_ofExcept _).bind fun _ => reading_done _

theorem reading_connectLocked (agentArgs : List String) (workspace : WorkspaceIdentity) :
    IsReading (Connect.connectLocked agentArgs workspace) := by
  refine (reading_discover _ _).bind fun sessions => (reading_ofExcept _).bind fun session => ?_
  have htoken : IsReading (loadCodexAttachTokenForClient session.runtime workspace) := by
    unfold loadCodexAttachTokenForClient
    split
    · refine IsReading.bind ?_ fun _ => reading_done _
      refine (reading_readToken _).bind fun text => ?_
      split
      · exact reading_fail _
      · exact reading_fail _
      · split_ifs
        · exact reading_fail _
        · exact reading_done _
    · exact reading_done _
  refine htoken.bind fun token => (reading_runHostRuntimeClient _ _ _ _ _).attempt.bind fun result => ?_
  split
  · exact reading_done _
  · exact reading_fail _

/-! ### Servers

Beside the parts that read the start of a server is one `podman run`, and what the lifecycle does when it
is interrupted or fails. -/

/-- The program installs the interrupt, calls `podman run` once, and goes on with operations of `A`. -/
def LaunchesOnce (A : HostOp → Prop) (commandName containerName : String) (spec : RuntimeRunSpec)
    (p : Command α) : Prop :=
  ∃ k, p = (installInterrupt commandName).bind (fun _ =>
      (runDetached containerName spec).attempt.bind k) ∧
    ∀ result, Only (S := HostOps) A (k result)

theorem LaunchesOnce.bind {A : HostOp → Prop} {commandName containerName : String}
    {spec : RuntimeRunSpec} {p : Command α} {f : α → Command β}
    (hp : LaunchesOnce A commandName containerName spec p) (hf : ∀ a, Only (S := HostOps) A (f a)) :
    LaunchesOnce A commandName containerName spec (p >>= f) := by
  obtain ⟨k, rfl, hk⟩ := hp
  refine ⟨fun result => (k result).bind f, ?_, fun result => .bind (hk result) hf⟩
  rw [Prog.bind_eq, Prog.bind_assoc]
  simp only [Prog.bind_assoc]

section
variable {A : HostOp → Prop} (hreads : ∀ o, isReading o = true → A o) {workspace : WorkspaceIdentity}
  {runtime : RuntimeKind} {spec : RuntimeRunSpec}
include hreads

theorem only_of_isReading {p : Command α} (h : IsReading p) : Only (S := HostOps) A p :=
  Only.weaken h hreads

theorem launchesOnce_launchDetachedServer {lifecycle : DetachedServerLifecycle}
    (hcheck : Only (S := HostOps) A lifecycle.checkInterrupted)
    (hrunError : ∀ e, Only (S := HostOps) A (lifecycle.runDetachedError e))
    (hreadiness : ∀ e, Only (S := HostOps) A (lifecycle.readinessError e)) :
    LaunchesOnce A lifecycle.commandName workspace.containerName spec
      (launchDetachedServer workspace runtime spec lifecycle) := by
  refine ⟨_, rfl, fun result => ?_⟩
  split
  · exact .bind hcheck fun _ => .bind (hrunError _) fun _ => only_fail _
  · refine .bind hcheck fun _ => .bind (only_of_isReading hreads
      (reading_waitForServerEndpoint _ _ _).attempt) fun wait => ?_
    split
    · exact .bind (hreadiness _) fun _ => only_fail _
    · exact .bind hcheck fun _ => only_fail _
    · exact .bind hcheck fun _ => only_done _

theorem launchesOnce_executeManagedServerLaunch {policy : ManagedServerLaunchPolicy}
    (hcheck : Only (S := HostOps) A policy.checkInterrupted)
    (token : Option CodexAttachToken) (completion : ManagedServerCompletion) :
    LaunchesOnce A policy.commandName workspace.containerName spec
      (executeManagedServerLaunch workspace runtime spec token policy completion) := by
  have hlaunch : LaunchesOnce A policy.commandName workspace.containerName spec
      (launchDetachedServer workspace runtime spec (managedServerLifecycle workspace spec policy)) :=
    launchesOnce_launchDetachedServer hreads hcheck
      (fun _ => .bind (only_of_isReading hreads (reading_classifyManagedServerCreateError _ _ _ _))
        fun _ => only_done _)
      fun _ => .bind (only_of_isReading hreads (reading_errorWithContainerLogs _ _ _)) fun _ => only_done _
  refine hlaunch.bind fun endpoint => ?_
  split_ifs
  · refine .bind (only_of_isReading hreads (reading_runHostRuntimeClient _ _ _ _ _).attempt)
      fun result => ?_
    split
    · exact only_done _
    · exact only_fail _
  · exact only_done _

theorem LaunchesOnce.only {commandName containerName : String} {p : Command α}
    (hp : LaunchesOnce A commandName containerName spec p)
    (hrun : A (.runDetached containerName spec)) : Only (S := HostOps) A p := by
  obtain ⟨k, rfl, hk⟩ := hp
  have hdetached : Only (S := HostOps) A (runDetached containerName spec) := ⟨hrun, only_ofExcept⟩
  exact .bind (only_of_isReading hreads (reading_installInterrupt _)) fun _ =>
    .bind hdetached.attempt hk

theorem only_executeManagedServerLaunch {policy : ManagedServerLaunchPolicy}
    (hrun : A (.runDetached workspace.containerName spec))
    (hcheck : Only (S := HostOps) A policy.checkInterrupted)
    (token : Option CodexAttachToken) (completion : ManagedServerCompletion) :
    Only (S := HostOps) A
      (executeManagedServerLaunch workspace runtime spec token policy completion) :=
  (launchesOnce_executeManagedServerLaunch hreads hcheck token completion).only hreads hrun

end

/-! ### Quiet parts that do not only read -/

theorem quiet_interrupted : IsQuiet interrupted := ⟨rfl, fun _ => trivial⟩

theorem quiet_containerExists (name : String) : IsQuiet (containerExists name) :=
  ⟨rfl, quiet_ofExcept⟩

theorem quiet_restartPolicy_checkInterrupted (workspace : WorkspaceIdentity)
    (runtime : RuntimeKind) :
    IsQuiet (Restart.restartServerLaunchPolicy workspace runtime).checkInterrupted := by
  refine quiet_interrupted.bind fun b => ?_
  split_ifs
  · exact (reading_fail _).quiet
  · exact (reading_done _).quiet

end Agentbox.Commands.Quiet
