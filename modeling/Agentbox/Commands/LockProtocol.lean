import Agentbox.Commands.RestartSafety
import Agentbox.Commands.StopAll
import Agentbox.Lib.Interleaving
import Agentbox.Session.RootContainers

/-! # The locks of concurrent commands

Commands of several processes, call by call in any order, whatever the calls answer. A process holds
at most one lock at a time and asks for a lock only when it holds none, so no processes wait for
each other in a circle. What changes a container, a cache volume or a token is called under the lock
of a root: a server of a name is started only under the lock of the root that has the name, and the
token of a digest is written only under the lock of the digest. Without a lock `stop --all` stops what
it has been shown without a root, and nothing else is changed. -/

namespace Agentbox.Commands.LockProtocol

open Agentbox.Base.Path Agentbox.Base.Errors Agentbox.Config.Limits Agentbox.Files.Snapshot
  Agentbox.Lib.Program Agentbox.Lib.Transition Agentbox.Lib.Interleaving Agentbox.Runtime.Kind
  Agentbox.Runtime.Spec Agentbox.Workspace.Identity Agentbox.Session.Record
  Agentbox.Session.Selection Agentbox.Session.Target Agentbox.Session.Restartable
  Agentbox.Commands.HostCalls Agentbox.Commands.WorkspaceFlow Agentbox.Commands.CodexAttachAuth
  Agentbox.Commands.ContainerCleanup Agentbox.Commands.ContainerLaunch
  Agentbox.Commands.DetachedServer Agentbox.Commands.Connect Agentbox.Commands.Start
  Agentbox.Commands.Restart Agentbox.Commands.Stop Agentbox.Commands.Quiet
  Agentbox.Commands.RestartSafety Agentbox.Commands.RoundTrip Agentbox.Metadata.Labels
  Agentbox.Podman.Model Agentbox.Session.Inspected Agentbox.Session.Discovery
  Agentbox.Session.Collected Agentbox.Session.RootContainers
  Agentbox.Commands.World Agentbox.Commands.Obliging
open Agentbox.Commands.StopAll (CallLog runningSessions demoLockError demoUnrooted)
open Agentbox.Session.ScopedDiscovery (demoRoot mem_candidates)
open Agentbox.Session.ConnectView (demoWorkspace)

/-! ### Commands -/

inductive SessionCommand
  | start (args : StartArgs)
  | run (args : RunArgs)
  | restart (args : RestartArgs)
  | connect (directory : OsPath) (agentArgs : List String)
  | stop (targets : List SessionTargetInput) (force : Bool)
  | stopAll

def SessionCommand.program : SessionCommand → Command Unit
  | start args => Start.start args
  | run args => Start.run args
  | restart args => restartTarget args
  | connect directory agentArgs => connectDirectory directory agentArgs
  | stop targets force => stopTargets targets force
  | stopAll => stopAllRunning

/-- The call changes containers, cache volumes or tokens. -/
def alters : HostOp → Bool
  | .stopIgnore _ | .runDetached _ _ | .removeVolume _ | .writeToken _ _ | .removeToken _ => true
  | _ => false

/-- The calls show a container of the name without a git root: it was listed and inspected. -/
def ShownRootless (calls : CallLog) (name : String) : Prop :=
  ∃ containers inspect, ∃ container ∈ containers, ⟨.ps false, .ok containers⟩ ∈ calls ∧
    ⟨.inspectOne container.id, .ok inspect⟩ ∈ calls ∧
    requiredLabelValue inspect.labels LABEL_GIT_ROOT = none ∧
    (container.names.bind List.head?).getD container.id = name

theorem ShownRootless.mono {calls calls' : CallLog} {name : String} (h : ShownRootless calls name)
    (hsub : calls ⊆ calls') : ShownRootless calls' name := by
  obtain ⟨containers, inspect, container, hmem, hlisted, hinspected, hrest⟩ := h
  exact ⟨containers, inspect, container, hmem, hsub hlisted, hsub hinspected, hrest⟩

/-- The locks that a command holds, and its calls so far. -/
structure OwnState where
  held : List String
  calls : CallLog

/-- What a command may call. -/
structure Disciplined (command : SessionCommand) (own : OwnState) (o : HostOp) : Prop where
  takes : ∀ digest64, o = .lockGuard digest64 → own.held = []
  releases : ∀ digest64, o = .unlock digest64 → own.held = [digest64]
  starts : ∀ name spec, o = .runDetached name spec → ∃ root, own.held = [gitRootDigest64 root] ∧
    name = (workspaceAt root).containerName
  writes : ∀ digest64 value, o = .writeToken digest64 value → own.held = [digest64]
  alters : alters o = true → (∃ root, own.held = [gitRootDigest64 root]) ∨
    command = .stopAll ∧ ∃ name, o = .stopIgnore name ∧ ShownRootless own.calls name

/-! ### One command -/

/-- The locks after a call, whatever it answers. -/
def HeldAfter (held : List String) : (o : HostOp) → o.Ret → List String → Prop
  | .lockGuard digest64, r, held' => Except.isOk r = true ∧ held' = digest64 :: held ∨
      Except.isOk r = false ∧ held' = held
  | .unlock digest64, _, held' => held' = held.erase digest64
  | _, _, held' => held' = held

def ownMachine : Machine HostOps OwnState where
  step own o r own' := HeldAfter own.held o r own'.held ∧ own'.calls = own.calls ++ [⟨o, r⟩]

/-- The call is one that an operation under the lock of the root may make. -/
def inside (root : Utf8Path) : HostOp → Prop
  | .lockGuard _ | .unlock _ => False
  | .runDetached name _ => name = (workspaceAt root).containerName
  | .writeToken digest64 _ => digest64 = gitRootDigest64 root
  | _ => True

/-- An operation that may run under the lock of the root. -/
def Inside {α : Type} (root : Utf8Path) (p : Command α) : Prop :=
  Only (S := HostOps) (inside root) p

variable {α : Type} {command : SessionCommand} {root : Utf8Path} {own own' : OwnState}
  {held : List String} {calls : CallLog} {o : HostOp}

theorem inside_of_isQuiet : ∀ {o : HostOp}, isQuiet o = true → inside root o
  | o, h => by cases o <;> trivial

theorem inside_of_isReading (h : isReading o = true) : inside root o :=
  inside_of_isQuiet (isQuiet_of_isReading h)

theorem alters_of_isReading : ∀ {o : HostOp}, isReading o = true → alters o = false
  | o, h => by cases o <;> first | rfl | cases h

theorem inside_reading {p : Command α} (h : IsReading p) : Inside root p :=
  Only.weaken h fun _ => inside_of_isReading

theorem disciplined_of_inside (h : inside root o) (hheld : own.held = [gitRootDigest64 root]) :
    Disciplined command own o where
  takes digest64 ho := by
    rw [ho] at h
    exact h.elim
  releases digest64 ho := by
    rw [ho] at h
    exact h.elim
  starts name spec ho := by
    rw [ho] at h
    exact ⟨root, hheld, h⟩
  writes digest64 value ho := by
    rw [ho] at h
    rw [hheld, show digest64 = gitRootDigest64 root from h]
  alters _ := .inl ⟨root, hheld⟩

theorem disciplined_of_isReading (h : isReading o = true) : Disciplined command own o where
  takes digest64 ho := by
    rw [ho] at h
    cases h
  releases digest64 ho := by
    rw [ho] at h
    cases h
  starts name spec ho := by
    rw [ho] at h
    cases h
  writes digest64 value ho := by
    rw [ho] at h
    cases h
  alters ha := by
    rw [alters_of_isReading h] at ha
    cases ha

theorem held_of_inside (h : inside root o) {r : o.Ret} (hstep : ownMachine.step own o r own') :
    own'.held = own.held := by
  cases o with
  | lockGuard digest64 => exact h.elim
  | unlock digest64 => exact h.elim
  | _ => exact hstep.1

/-- The command, or a part of it, begins and ends without a lock after some calls. -/
def BalancedAfter (command : SessionCommand) (calls : CallLog) (p : Command α) : Prop :=
  wp ownMachine (Disciplined command) p (fun _ own => own.held = [] ∧ calls ⊆ own.calls) ⟨[], calls⟩

def Balanced (command : SessionCommand) (p : Command α) : Prop :=
  ∀ calls, BalancedAfter command calls p

theorem balanced_done (a : α) : Balanced command (.done a) :=
  fun calls => ⟨rfl, List.Subset.refl calls⟩

theorem balanced_ofExcept (r : Except Error α) : Balanced command (Prog.ofExcept r) :=
  fun calls => (wp_ofExcept r _).2 ⟨rfl, List.Subset.refl calls⟩

theorem BalancedAfter.bind {β : Type} {p : Command α} {f : α → Command β}
    (hp : BalancedAfter command calls p)
    (hf : ∀ a calls', calls ⊆ calls' → BalancedAfter command calls' (f a)) :
    BalancedAfter command calls (p >>= f) := by
  refine (wp_bind _ _ _ _).2 (wp_mono hp ?_)
  rintro (e | a) ⟨held, calls'⟩ ⟨rfl, hsub⟩
  · exact ⟨rfl, hsub⟩
  · exact wp_mono (hf a calls' hsub) fun _ _ h => ⟨h.1, List.Subset.trans hsub h.2⟩

theorem Balanced.bind {β : Type} {p : Command α} {f : α → Command β} (hp : Balanced command p)
    (hf : ∀ a, Balanced command (f a)) : Balanced command (p >>= f) :=
  fun calls => (hp calls).bind fun a calls' _ => hf a calls'

theorem Balanced.attempt {p : Command α} (hp : Balanced command p) : Balanced command p.attempt :=
  fun calls => (wp_attempt _ _ _).2 (hp calls)

/-- A part that leaves the locks alone keeps what it has been shown. -/
theorem wp_only {A : HostOp → Prop} {R : Except Error α → Prop} {p : Command α}
    (hA : ∀ own o, A o → own.held = held → calls ⊆ own.calls → Disciplined command own o)
    (hheld : ∀ own o r own', A o → ownMachine.step own o r own' → own'.held = own.held)
    (hp : Always (S := HostOps) A R p) :
    wp ownMachine (Disciplined command) p
      (fun r own => R r ∧ own.held = held ∧ calls ⊆ own.calls) ⟨held, calls⟩ := by
  refine wp_of_always (I := fun own => own.held = held ∧ calls ⊆ own.calls)
    (fun own o ho h => hA own o ho h.1 h.2) (fun own o r own' ho h hstep => ?_) hp ?_
  swap
  · exact ⟨rfl, List.Subset.refl calls⟩
  refine ⟨(hheld own o r own' ho hstep).trans h.1, ?_⟩
  rw [hstep.2]
  exact List.subset_append_of_subset_left _ h.2

/-- A part that only reads, and what goes on with its result. -/
theorem balanced_reading {β : Type} {R : Except Error α → Prop} {p : Command α}
    {f : α → Command β} (hp : IsReading p) (hR : Always (fun _ => True) R p)
    (hf : ∀ a, R (.ok a) → Balanced command (f a)) : Balanced command (p >>= f) := by
  intro calls
  have hheld : ∀ own o r own', isReading o = true → ownMachine.step own o r own' →
      own'.held = own.held := by
    intro own o r own' ho hstep
    have hinside : inside ⟨""⟩ o := inside_of_isReading ho
    exact held_of_inside hinside hstep
  have hread : wp ownMachine (Disciplined command) p
      (fun _ own => True ∧ own.held = [] ∧ calls ⊆ own.calls) ⟨[], calls⟩ :=
    wp_only (fun own o ho _ _ => disciplined_of_isReading ho) hheld hp
  refine (wp_bind _ _ _ _).2 (wp_mono (wp_and_always hread hR) ?_)
  rintro (e | a) ⟨held, calls'⟩ ⟨⟨-, rfl, hsub⟩, hresult⟩
  · exact ⟨rfl, hsub⟩
  · exact wp_mono (hf a hresult calls') fun _ _ h => ⟨h.1, List.Subset.trans hsub h.2⟩

/-- The rule of a lock: the operation runs under it and leaves it alone, and it is released. -/
theorem balanced_withGuard {operation : Command α} (h : Inside root operation) :
    Balanced command (withGuard (gitRootDigest64 root) operation) := by
  intro calls
  refine ⟨⟨fun _ _ => rfl, fun _ ho => (by cases ho), fun _ _ ho => (by cases ho),
    fun _ _ ho => (by cases ho), fun ha => (by cases ha)⟩, fun r own hstep => ?_⟩
  obtain ⟨held, calls1⟩ := own
  obtain ⟨hheld, hcalls⟩ := hstep
  obtain rfl : calls1 = calls ++ [_] := hcalls
  have hsub : calls ⊆ calls ++ [(⟨.lockGuard (gitRootDigest64 root), r⟩ : (o : HostOp) × o.Ret)] :=
    List.subset_append_left _ _
  rcases r with e | ⟨⟩
  · obtain ⟨hok, -⟩ | ⟨-, rfl⟩ := hheld
    · cases hok
    · exact ⟨rfl, hsub⟩
  obtain ⟨-, rfl⟩ | ⟨hok, -⟩ := hheld
  · change wp ownMachine (Disciplined command) (operation.attempt.bind fun result =>
      (unlock (gitRootDigest64 root)).bind fun _ => Prog.ofExcept result) _
        ⟨[gitRootDigest64 root], _⟩
    refine (wp_bind _ _ _ _).2 ((wp_attempt _ _ _).2 (wp_mono (wp_only
      (fun own o ho hheld _ => disciplined_of_inside ho hheld)
      (fun own o r own' ho hstep => held_of_inside ho hstep) h) ?_))
    rintro result ⟨held, calls2⟩ ⟨-, rfl, hsub2⟩
    refine ⟨⟨fun _ ho => (by cases ho), ?_, fun _ _ ho => (by cases ho),
      fun _ _ ho => (by cases ho), fun ha => (by cases ha)⟩, fun _ own hstep => ?_⟩
    · rintro digest64 ⟨⟩
      rfl
    refine (wp_ofExcept _ _).2 ⟨hstep.1.trans (List.erase_cons_head ..), ?_⟩
    rw [hstep.2]
    exact List.subset_append_of_subset_left _ (List.Subset.trans hsub hsub2)
  · cases hok

/-! ### Parts of the commands

Beside what they read these parts stop containers, and ask whether they are gone. -/

section
variable {A : HostOp → Prop} (hquiet : ∀ o, isQuiet o = true → A o)
  (hstop : ∀ name, A (.stopIgnore name)) {workspace : WorkspaceIdentity}
include hquiet

theorem only_of_isQuiet {p : Command α} (h : IsQuiet p) : Only (S := HostOps) A p :=
  Only.weaken h hquiet

theorem only_prepareRuntimeLaunch {request : RuntimeLaunchRequest}
    (hwrite : ∀ value, A (.writeToken request.workspace.digest64 value)) :
    Only (S := HostOps) A (prepareRuntimeLaunch request) := by
  have hgenerate : Only (S := HostOps) A CodexAttachToken.generate :=
    only_of_isQuiet hquiet (reading_generateToken.bind fun _ => reading_done _).quiet
  have htoken : Only (S := HostOps) A
      (prepareCodexAttachToken request.runtime request.policy.runMode request.workspace) := by
    unfold prepareCodexAttachToken
    split
    · exact only_done _
    · refine .bind (.bind hgenerate fun token => .bind ?_ fun _ => only_done _) fun _ => only_done _
      exact ⟨hwrite _, only_ofExcept⟩
    · exact .bind hgenerate fun _ => only_done _
    · exact only_done _
  exact .bind (only_of_isQuiet hquiet (reading_prepareContainerLaunchForWorkspace request).quiet)
    fun _ => .bind htoken fun _ => .bind (only_ofExcept _) fun _ =>
    .bind (only_of_isQuiet hquiet (reading_detectPassthrough _).quiet) fun _ => only_done _

include hstop

theorem only_stopAndVerify (name : String) :
    Only (S := HostOps) A (ManagedContainerCleanup.stopAndVerify name) := by
  have hcall : Only (S := HostOps) A (stopIgnore name) := ⟨hstop name, only_ofExcept⟩
  exact .bind hcall.attempt fun _ =>
    .bind (only_of_isQuiet hquiet (quiet_containerExists name)).attempt fun _ => only_done _

theorem only_stopExistingSession (session : SessionRecord) :
    Only (S := HostOps) A (stopExistingSession session) := by
  refine .bind (only_stopAndVerify hquiet hstop _) fun cleanup => ?_
  split
  · exact only_fail _
  · exact only_done _

theorem only_startPolicy (existed : Bool) :
    Only (S := HostOps) A (startServerLaunchPolicy workspace existed).checkInterrupted := by
  have hvolume : Only (S := HostOps) A (removeVolume workspace.containerName) :=
    ⟨hquiet _ rfl, only_ofExcept⟩
  have hcleanup : Only (S := HostOps) A (InterruptedRunCleanup.run workspace existed) := by
    refine .bind (only_stopAndVerify hquiet hstop _) fun cleanup => ?_
    simp only
    split_ifs
    · exact only_done _
    · refine .bind hvolume.attempt fun r => ?_
      split
      · exact only_done _
      · exact only_done _
    · exact only_done _
  refine .bind (only_of_isQuiet hquiet quiet_interrupted) fun b => ?_
  split_ifs
  · exact .bind hcleanup fun _ => only_fail _
  · exact only_done _

theorem only_cleanupTransientContainer :
    Only (S := HostOps) A (cleanupTransientContainer workspace) := by
  refine .bind (only_stopAndVerify hquiet hstop _) fun cleanup => ?_
  split
  · exact only_fail _
  · exact only_done _

/-- A transient run starts its server once. -/
theorem launchesOnce_transientRun {runtime : RuntimeKind} {spec : RuntimeRunSpec}
    (token : Option CodexAttachToken) (clientArgs : List String) :
    LaunchesOnce A "run" workspace.containerName spec
      (executeTransientRunLaunch workspace runtime spec token clientArgs) := by
  have hreads : ∀ o, isReading o = true → A o := fun o ho => hquiet o (isQuiet_of_isReading ho)
  have hcleanup (error : Error) : Only (S := HostOps) A (withCleanupResult workspace error) :=
    .bind (only_cleanupTransientContainer hquiet hstop).attempt fun _ => only_done _
  have hcheck : Only (S := HostOps) A (transientServerLifecycle workspace).checkInterrupted := by
    refine .bind (only_of_isQuiet hquiet quiet_interrupted) fun b => ?_
    split_ifs
    · exact .bind (hcleanup _) fun _ => only_fail _
    · exact only_done _
  have hlaunch : LaunchesOnce A "run" workspace.containerName spec
      (launchDetachedServer workspace runtime spec (transientServerLifecycle workspace)) :=
    launchesOnce_launchDetachedServer hreads hcheck (fun _ => only_done _) fun _ =>
      .bind (only_of_isReading hreads (reading_errorWithContainerLogs _ _ _)) fun _ => hcleanup _
  refine hlaunch.bind fun endpoint => .bind (only_of_isReading hreads
    (reading_runHostRuntimeClientStatus _ _ _ _ _)).attempt fun status =>
    .bind (only_cleanupTransientContainer hquiet hstop).attempt fun cleanup => ?_
  split
  · split_ifs
    · exact only_ofExcept _
    · exact only_fail _
  · exact only_fail _

end

/-! ### What runs under a lock -/

section
variable {workspace : WorkspaceIdentity}

theorem containerName_eq (h : IsResolved workspace) :
    workspace.containerName = (workspaceAt workspace.canonicalGitRoot).containerName := by
  rw [h.containerName_eq, h.hash12_eq]
  rfl

theorem inside_prepareRuntimeLaunch (request : RuntimeLaunchRequest)
    (h : IsResolved request.workspace) :
    Inside request.workspace.canonicalGitRoot (prepareRuntimeLaunch request) :=
  only_prepareRuntimeLaunch (fun _ ho => inside_of_isQuiet ho) fun _ => h.digest64_eq

theorem inside_startLocked (args : StartArgs) (limits : ResourceLimits) (h : IsResolved workspace) :
    Inside workspace.canonicalGitRoot (startLocked args limits workspace) :=
  Only.bind (inside_prepareRuntimeLaunch (managedServerLaunchRequest workspace args.runtime
    args.devEnv args.connect args.agentArgs limits) h) fun _ =>
    Only.bind (inside_reading (reading_volumeExists _)) fun existed =>
    only_executeManagedServerLaunch (fun _ ho => inside_of_isReading ho) (containerName_eq h)
      (only_startPolicy (fun _ ho => inside_of_isQuiet ho) (fun _ => trivial) existed) _ _

theorem inside_runLocked (args : RunArgs) (limits : ResourceLimits) (h : IsResolved workspace) :
    Inside workspace.canonicalGitRoot (runLocked args limits workspace) :=
  Only.bind (inside_prepareRuntimeLaunch (transientServerLaunchRequest workspace args.runtime
    args.devEnv limits) h) fun _ => (launchesOnce_transientRun (fun _ ho => inside_of_isQuiet ho)
      (fun _ => trivial) _ _).only (fun _ ho => inside_of_isReading ho) (containerName_eq h)

end

theorem inside_restartLocked (args : RestartArgs) (plan : RestartSessionTargetPlan) :
    Inside plan.lockGitRoot (restartLocked args plan) := by
  refine Only.bind (inside_reading (reading_selectSessionCandidate plan plan.lockGitRoot))
    fun session => Only.bind (only_ofExcept _) fun restart => ?_
  -- the workspace is one of the locked root
  have hworkspace : Always (S := HostOps) (inside plan.lockGitRoot)
      (fun r => ∀ workspace, r = .ok workspace → IsResolved workspace ∧
        workspace.canonicalGitRoot = plan.lockGitRoot)
      (restartLaunchWorkspace plan.lockGitRoot restart.session restart.launchDirectory) := by
    refine ⟨trivial, fun host => (always_ofExcept _ _).2 fun workspace h => ?_⟩
    obtain ⟨hresolve, hroot⟩ := restartWorkspaceOf_eq_ok h
    exact ⟨isResolved_of_ok hresolve, hroot⟩
  refine always_bind hworkspace (fun _ _ => trivial) fun workspace h => ?_
  obtain ⟨hresolved, hroot⟩ := h workspace rfl
  refine Only.bind (inside_reading (reading_restartResourceLimits _ _)) fun limits => ?_
  rw [← hroot]
  refine Only.bind (inside_prepareRuntimeLaunch (replacementServerLaunchRequest workspace
    restart.runtime args.devEnv args.connect restart.serverArgs limits) hresolved) fun prep =>
    Only.bind (only_stopExistingSession (fun _ ho => inside_of_isQuiet ho) (fun _ => trivial) _)
      fun _ => ?_
  exact only_executeManagedServerLaunch (fun _ ho => inside_of_isReading ho)
    (containerName_eq hresolved) (only_of_isQuiet (fun _ ho => inside_of_isQuiet ho)
      (quiet_restartPolicy_checkInterrupted _ _)) _ _

theorem inside_cleanupManagedContainer (session : SessionRecord) :
    Inside root (cleanupManagedContainer session) := by
  refine Only.bind (only_stopAndVerify (fun _ ho => inside_of_isQuiet ho) (fun _ => trivial) _)
    fun cleanup => ?_
  split
  · exact only_done _
  · refine Only.bind (Only.attempt ?_) fun _ => only_done _
    unfold removeCodexAttachTokenForSession
    split_ifs
    · split
      · exact ⟨trivial, only_ofExcept⟩
      · exact only_done _
    · exact only_done _

theorem inside_cleanupManagedContainers : ∀ sessions : List SessionRecord,
    Inside root (cleanupManagedContainers sessions)
  | [] => only_done _
  | session :: sessions => Only.bind (inside_cleanupManagedContainer session) fun _ =>
      Only.bind (inside_cleanupManagedContainers sessions) fun _ => only_done _

/-! ### The commands -/

theorem balanced_cleanupRootedSessionGroups (scope : RootedSessionCleanupScope) :
    ∀ groups : List SessionGroup, Balanced command (cleanupRootedSessionGroups scope groups)
  | [] => balanced_done _
  | group :: groups => by
    have hscope : Inside group.canonicalGitRoot
        (scope.cleanup group.canonicalGitRoot group.sessions) := by
      unfold RootedSessionCleanupScope.cleanup
      split
      · exact inside_cleanupManagedContainers _
      · exact Only.bind (inside_reading (reading_discover _ _)) fun _ =>
          inside_cleanupManagedContainers _
    exact (balanced_withGuard hscope).bind fun _ =>
      (balanced_cleanupRootedSessionGroups scope groups).bind fun _ => balanced_done _

theorem balanced_stopTarget (target : SessionTargetInput) (force : Bool) :
    Balanced command (stopTarget target force) := by
  refine balanced_reading (reading_resolveStop target) (always_trivial _) fun plan _ => ?_
  split
  · next plan =>
    refine (balanced_withGuard ?_).bind fun failures => balanced_ofExcept _
    unfold stopExactGitRootLocked
    simp only
    split_ifs
    · exact Only.bind (inside_reading (reading_discover _ _)) fun _ => Only.bind (only_ofExcept _)
        fun _ => Only.bind (only_ofExcept _) fun _ => inside_cleanupManagedContainers _
    · exact Only.bind (inside_reading (reading_discover _ _)) fun _ => Only.bind (only_ofExcept _)
        fun _ => Only.bind (only_ofExcept _) fun _ => inside_cleanupManagedContainers _
  · exact (balanced_ofExcept _).bind fun _ =>
      (balanced_cleanupRootedSessionGroups _ _).bind fun _ => balanced_ofExcept _

theorem balanced_stopEachTarget (force : Bool) : ∀ targets : List SessionTargetInput,
    Balanced command (stopEachTarget force targets)
  | [] => balanced_done _
  | target :: targets => by
    refine (balanced_stopTarget target force).attempt.bind fun result =>
      (balanced_stopEachTarget force targets).bind fun failures => ?_
    split
    · exact balanced_done _
    · exact balanced_done _

theorem balanced_stopTargets (targets : List SessionTargetInput) (force : Bool) :
    Balanced command (stopTargets targets force) := by
  unfold stopTargets
  split
  · exact balanced_done _
  · exact balanced_stopTarget _ _
  · refine (balanced_stopEachTarget force _).bind fun failures => ?_
    split
    · exact balanced_done _
    · exact balanced_ofExcept (.error _)

/-! ### What is stopped without a lock -/

/-- Every inspection that gives a record is a call. -/
theorem wp_inspectAll (probe : GitRootProbe) : ∀ (l : List (PodmanPsContainer ×
    AgentboxContainerKind)) (own : OwnState), own.held = [] →
      wp ownMachine (Disciplined command) (inspectAll inspectOne probe l)
        (fun r own' => (own'.held = [] ∧ own.calls ⊆ own'.calls) ∧ ∀ records, r = .ok records →
          ∀ record ∈ records, ∃ candidate ∈ l, ∃ inspect,
            ⟨.inspectOne candidate.1.id, .ok inspect⟩ ∈ own'.calls ∧
            record = buildSessionRecord candidate.1 inspect candidate.2 probe) own
  | [], own, hheld => by
    refine ⟨⟨hheld, List.Subset.refl _⟩, fun records hrecords record hmem => ?_⟩
    cases hrecords
    cases hmem
  | (container, kind) :: l, own, hheld => by
    refine ⟨disciplined_of_isReading rfl, fun r own1 ⟨hheld1, hcalls1⟩ => ?_⟩
    have hsub1 : own.calls ⊆ own1.calls := hcalls1 ▸ List.subset_append_left _ _
    rcases r with e | inspect
    · exact ⟨⟨hheld1.trans hheld, hsub1⟩, fun _ h => nomatch h⟩
    change wp _ _ ((inspectAll inspectOne probe l).bind _) _ own1
    refine (wp_bind _ _ _ _).2 (wp_mono (wp_inspectAll probe l own1 (hheld1.trans hheld)) ?_)
    rintro (e | records) own2 ⟨⟨hheld2, hsub2⟩, hrecords⟩
    · exact ⟨⟨hheld2, List.Subset.trans hsub1 hsub2⟩, fun _ h => nomatch h⟩
    · refine ⟨⟨hheld2, List.Subset.trans hsub1 hsub2⟩, fun records' h => ?_⟩
      cases h
      refine List.forall_mem_cons.2 ⟨⟨_, List.mem_cons_self, inspect, hsub2 ?_, rfl⟩, ?_⟩
      · rw [hcalls1]
        exact List.mem_append_right _ (List.mem_singleton_self _)
      · intro record hmem
        obtain ⟨candidate, hcandidate, hrest⟩ := hrecords records rfl record hmem
        exact ⟨candidate, List.mem_cons_of_mem _ hcandidate, hrest⟩

/-- The sessions without a root that are discovered are shown by the calls of the discovery. -/
theorem wp_discoverAgentboxContainers (calls : CallLog) :
    wp ownMachine (Disciplined command) discoverAgentboxContainers
      (fun r own => (own.held = [] ∧ calls ⊆ own.calls) ∧ ∀ sessions, r = .ok sessions →
        ∀ session ∈ sessions, session.canonicalGitRoot = none →
          ShownRootless own.calls session.containerName) ⟨[], calls⟩ := by
  refine ⟨disciplined_of_isReading rfl, fun r own1 ⟨hheld1, hcalls1⟩ => ?_⟩
  have hsub1 : calls ⊆ own1.calls := hcalls1 ▸ List.subset_append_left _ _
  rcases r with e | containers
  · exact ⟨⟨hheld1, hsub1⟩, fun _ h => nomatch h⟩
  refine ⟨disciplined_of_isReading rfl, fun host own2 ⟨hheld2, hcalls2⟩ => ?_⟩
  have hsub2 : own1.calls ⊆ own2.calls := hcalls2 ▸ List.subset_append_left _ _
  change wp _ _ (discoverSessionsFromPs containers .all .agentboxOwned inspectOne
    host.gitRootProbe) _ own2
  rw [discoverSessionsFromPs_eq]
  refine (wp_bind _ _ _ _).2 (wp_mono (wp_inspectAll _ _ own2 (hheld2.trans hheld1)) ?_)
  rintro (e | records) own3 ⟨⟨hheld3, hsub3⟩, hrecords⟩
  · exact ⟨⟨hheld3, List.Subset.trans hsub1 (List.Subset.trans hsub2 hsub3)⟩, fun _ h => nomatch h⟩
  refine (wp_ofExcept _ _).2 ⟨⟨hheld3, List.Subset.trans hsub1 (List.Subset.trans hsub2 hsub3)⟩,
    fun sessions h session hmem hroot => ?_⟩
  rw [collected_all] at h
  cases h
  obtain ⟨record, hrecord, hsession⟩ := mem_markDuplicate hmem
  obtain ⟨candidate, hcandidate, inspect, hinspected, rfl⟩ := hrecords records rfl record hrecord
  refine ⟨containers, inspect, candidate.1, (mem_candidates hcandidate).1, ?_,
    hinspected, ?_, ?_⟩
  · refine hsub3 (hsub2 ?_)
    rw [hcalls1]
    exact List.mem_append_right _ (List.mem_singleton_self _)
  · obtain rfl | rfl := hsession
    · exact Option.map_eq_none_iff.1 hroot
    · exact Option.map_eq_none_iff.1 hroot
  · obtain rfl | rfl := hsession
    · rfl
    · rfl

/-- The call stops the container, or asks for one. -/
def stopsOnly (name : String) : HostOp → Prop
  | .stopIgnore stopped => stopped = name
  | .containerExists _ => True
  | _ => False

theorem disciplined_of_stopsOnly {name : String} (h : stopsOnly name o)
    (hshown : ShownRootless own.calls name) : Disciplined .stopAll own o := by
  cases o with
  | stopIgnore stopped =>
    obtain rfl : stopped = name := h
    exact ⟨fun _ ho => (by cases ho), fun _ ho => (by cases ho), fun _ _ ho => (by cases ho),
      fun _ _ ho => (by cases ho), fun _ => .inr ⟨rfl, stopped, rfl, hshown⟩⟩
  | containerExists name =>
    exact ⟨fun _ ho => (by cases ho), fun _ ho => (by cases ho), fun _ _ ho => (by cases ho),
      fun _ _ ho => (by cases ho), fun ha => (by cases ha)⟩
  | _ => exact h.elim

theorem held_of_stopsOnly {name : String} (h : stopsOnly name o) {r : o.Ret}
    (hstep : ownMachine.step own o r own') : own'.held = own.held := by
  have hinside : inside ⟨""⟩ o := by cases o <;> trivial
  exact held_of_inside hinside hstep

/-- The containers without a root are stopped without a lock. -/
theorem balanced_unrooted : ∀ (sessions : List SessionRecord) (calls : CallLog),
    (∀ session ∈ sessions, session.canonicalGitRoot = none ∧
      ShownRootless calls session.containerName) →
      BalancedAfter .stopAll calls (cleanupManagedContainers sessions)
  | [], calls, _ => balanced_done _ calls
  | session :: sessions, calls, h => by
    obtain ⟨hroot, hshown⟩ := h session List.mem_cons_self
    have hstopping : Only (S := HostOps) (stopsOnly session.containerName)
        (cleanupManagedContainer session) := by
      have hstop : Only (S := HostOps) (stopsOnly session.containerName)
          (stopIgnore session.containerName) := ⟨rfl, only_ofExcept⟩
      have hexists : Only (S := HostOps) (stopsOnly session.containerName)
          (containerExists session.containerName) := ⟨trivial, only_ofExcept⟩
      refine Only.bind (Only.bind hstop.attempt fun _ => Only.bind hexists.attempt fun _ =>
        only_done _) fun cleanup => ?_
      split
      · exact only_done _
      · refine Only.bind (Only.attempt ?_) fun _ => only_done _
        rw [removeCodexAttachTokenForSession, hroot]
        split_ifs
        · exact only_done _
        · exact only_done _
    have hone : BalancedAfter .stopAll calls (cleanupManagedContainer session) :=
      wp_mono (wp_only (fun own o ho _ hsub => disciplined_of_stopsOnly ho (hshown.mono hsub))
        (fun own o r own' ho hstep => held_of_stopsOnly ho hstep) hstopping) fun _ _ h => h.2
    refine hone.bind fun _ calls' hsub => ?_
    refine (balanced_unrooted sessions calls' fun session' hmem => ?_).bind fun _ calls'' _ =>
      balanced_done _ calls''
    obtain ⟨hroot', hshown'⟩ := h session' (List.mem_cons_of_mem _ hmem)
    exact ⟨hroot', hshown'.mono hsub⟩

theorem balanced_stopAllRunning : Balanced .stopAll stopAllRunning := by
  intro calls
  refine (wp_bind _ _ _ _).2 (wp_mono (wp_discoverAgentboxContainers calls) ?_)
  rintro (e | discovered) ⟨held, calls1⟩ ⟨⟨rfl, hsub⟩, hshown⟩
  · exact ⟨rfl, hsub⟩
  have hcleanup : BalancedAfter .stopAll calls1
      (cleanupAllRunningMatches (runningSessions discovered)) := by
    refine (balanced_cleanupRootedSessionGroups _ _ calls1).bind fun _ calls2 hsub2 =>
      (balanced_unrooted _ calls2 fun session hmem => ?_).bind fun _ calls3 _ =>
      balanced_done _ calls3
    obtain ⟨hrunning, hnone⟩ := List.mem_filter.1 hmem
    have hroot := Option.isNone_iff_eq_none.1 hnone
    exact ⟨hroot, (hshown discovered rfl session (List.mem_filter.1 hrunning).1 hroot).mono hsub2⟩
  have hall := hcleanup.bind (f := fun failures => Prog.ofExcept (finishCleanup
    "all running agentbox containers" failures)) fun _ calls2 _ => balanced_ofExcept _ calls2
  exact wp_mono hall fun _ _ h => ⟨h.1, List.Subset.trans hsub h.2⟩

theorem balanced_withLockedWorkspace (directory : OsPath)
    {operation : WorkspaceIdentity → Command α}
    (h : ∀ workspace, IsResolved workspace →
      Inside workspace.canonicalGitRoot (operation workspace)) :
    Balanced command (withLockedWorkspace directory operation) := by
  have hresolved : Always (S := HostOps) (fun _ => True)
      (fun r => ∀ workspace, r = .ok workspace → IsResolved workspace)
      (resolveWorkspace directory) :=
    ⟨trivial, fun _ => (always_ofExcept _ _).2 fun _ h => isResolved_of_ok h⟩
  refine balanced_reading (reading_resolveWorkspace directory) hresolved fun workspace hw => ?_
  have hw := hw workspace rfl
  rw [hw.digest64_eq]
  exact balanced_withGuard (h workspace hw)

/-- Every command begins and ends without a lock, and is disciplined in between. -/
theorem balanced_program (command : SessionCommand) : Balanced command command.program := by
  cases command with
  | start args =>
    exact balanced_reading reading_loadConfig (always_trivial _) fun _ _ =>
      balanced_withLockedWorkspace _ fun _ h => inside_startLocked _ _ h
  | run args =>
    exact balanced_reading reading_loadConfig (always_trivial _) fun _ _ =>
      balanced_withLockedWorkspace _ fun _ h => inside_runLocked _ _ h
  | restart args =>
    exact balanced_reading (reading_resolveRestart _) (always_trivial _) fun plan _ =>
      balanced_withGuard (inside_restartLocked args plan)
  | connect directory agentArgs =>
    exact balanced_withLockedWorkspace _ fun workspace _ =>
      inside_reading (reading_connectLocked agentArgs workspace)
  | stop targets force => exact balanced_stopTargets targets force
  | stopAll => exact balanced_stopAllRunning

/-! ### Several processes -/

variable {ι : Type} [DecidableEq ι]

/-- Which process holds the lock of a digest, and the calls of each process so far. -/
structure Table (ι : Type) where
  holder : String → Option ι
  calls : ι → CallLog

/-- The locks after a call. A lock is taken only when nobody holds it. -/
def HolderAfter (i : ι) (holder : String → Option ι) : (o : HostOp) → o.Ret →
    (String → Option ι) → Prop
  | .lockGuard digest64, r, holder' => Except.isOk r = true ∧ holder digest64 = none ∧
        holder' = Function.update holder digest64 (some i) ∨
      Except.isOk r = false ∧ holder' = holder
  | .unlock digest64, _, holder' =>
    holder' = if holder digest64 = some i then Function.update holder digest64 none else holder
  | _, _, holder' => holder' = holder

def lockTable (i : ι) : Machine HostOps (Table ι) where
  step x o r x' := HolderAfter i x.holder o r x'.holder ∧
    x'.calls = Function.update x.calls i (x.calls i ++ [⟨o, r⟩])

/-- Processes that run one command each; at first nobody holds a lock. -/
def processes (command : ι → SessionCommand) :
    System (Threads HostOps Error Unit ι (Table ι)) (Call HostOps ι) :=
  (interleaving lockTable (fun x => (∀ digest64, x.holder digest64 = none) ∧ ∀ i, x.calls i = [])
    fun i p => p = (command i).program).restrict fun _ _ => True

/-- What is left of a command is disciplined for the locks that its process holds. -/
def Follows (command : ι → SessionCommand) (i : ι) (x : Table ι) (p : Command Unit) : Prop :=
  ∃ held, wp ownMachine (Disciplined (command i)) p (fun _ own => own.held = []) ⟨held, x.calls i⟩ ∧
    held.length ≤ 1 ∧ ∀ digest64, x.holder digest64 = some i ↔ digest64 ∈ held

variable {commands : ι → SessionCommand} {i j : ι} {x x' : Table ι} {p : Command Unit}
  {k : o.Ret → Command Unit} {r : o.Ret}

/-- **The step lemma.** A call leaves the rest of its command disciplined. -/
theorem follows_own (h : Follows commands i x (.call o k)) (hstep : (lockTable i).step x o r x') :
    Follows commands i x' (k r) := by
  obtain ⟨held, ⟨hdisciplined, hk⟩, hlength, hheld⟩ := h
  obtain ⟨hholder, hcalls⟩ := hstep
  have hmine : x'.calls i = x.calls i ++ [⟨o, r⟩] := by rw [hcalls, Function.update_self]
  have hrest : ∀ held', HeldAfter held o r held' → wp ownMachine (Disciplined (commands i)) (k r)
      (fun _ own => own.held = []) ⟨held', x'.calls i⟩ :=
    fun held' hafter => hk r ⟨held', x'.calls i⟩ ⟨hafter, hmine⟩
  cases o with
  | lockGuard digest64 =>
    obtain ⟨hok, hfree, hholder⟩ | ⟨hfailed, hholder⟩ := hholder
    · obtain rfl : held = [] := hdisciplined.takes digest64 rfl
      refine ⟨[digest64], hrest _ (.inl ⟨hok, rfl⟩), le_rfl, fun d => ?_⟩
      rw [hholder]
      by_cases hd : d = digest64
      · simp [hd]
      · simp [hd, hheld]
    · exact ⟨held, hrest _ (.inr ⟨hfailed, rfl⟩), hlength, hholder ▸ hheld⟩
  | unlock digest64 =>
    obtain rfl : held = [digest64] := hdisciplined.releases digest64 rfl
    have hmine : x.holder digest64 = some i := (hheld digest64).2 List.mem_cons_self
    have hreleased : x'.holder = Function.update x.holder digest64 none :=
      hholder.trans (if_pos hmine)
    refine ⟨[], hrest _ (List.erase_cons_head ..).symm, Nat.zero_le _, fun d => ?_⟩
    rw [hreleased]
    by_cases hd : d = digest64
    · simp [hd]
    · simp [hd, hheld]
  | _ =>
    have hsame : x'.holder = x.holder := hholder
    exact ⟨held, hrest _ rfl, hlength, hsame ▸ hheld⟩

/-- A call of one process leaves the locks and the calls of another one. -/
theorem table_other (hne : i ≠ j) (hstep : (lockTable i).step x o r x') :
    x'.calls j = x.calls j ∧
      ∀ digest64, x'.holder digest64 = some j ↔ x.holder digest64 = some j := by
  obtain ⟨hholder, hcalls⟩ := hstep
  refine ⟨by rw [hcalls, Function.update_of_ne hne.symm], fun digest64 => ?_⟩
  cases o with
  | lockGuard taken =>
    obtain ⟨-, hfree, hholder⟩ | ⟨-, hholder⟩ := hholder
    · rw [hholder]
      by_cases hd : digest64 = taken
      · simp [hd, hfree, hne]
      · simp [hd]
    · rw [hholder]
  | unlock released =>
    have hreleased : x'.holder = if x.holder released = some i then
        Function.update x.holder released none else x.holder := hholder
    rw [hreleased]
    split_ifs with hmine
    · by_cases hd : digest64 = released
      · simp [hd, hmine, hne]
      · simp [hd]
    · rfl
  | _ =>
    have hsame : x'.holder = x.holder := hholder
    rw [hsame]

/-- **The run lemma.** -/
theorem follows_of_reachable {x : Threads HostOps Error Unit ι (Table ι)}
    (h : Reachable (processes commands) x) (i : ι) : Follows commands i x.shared (x.thread i) := by
  refine (reachable_interleaving (C := fun _ _ => True) (I := fun _ => True)
    (J := Follows commands) (fun _ _ => trivial)
    (fun i x p hinit hp => ?_) (fun i x o k r x' _ hJ _ hstep => ⟨trivial,
      follows_own hJ hstep⟩) (fun i j x o r x' p hne hstep hJ => ?_) h).2 i
  · rw [hp]
    exact ⟨[], wp_mono (balanced_program (commands i) (x.calls i)) fun _ _ h => h.1, Nat.zero_le _,
      fun d => by simp [hinit.1 d]⟩
  · obtain ⟨held, hwp, hlength, hheld⟩ := hJ
    obtain ⟨hcalls, hholder⟩ := table_other hne hstep
    exact ⟨held, hcalls.symm ▸ hwp, hlength, fun d => (hholder d).trans (hheld d)⟩

/-- What is safe about the locks of processes. -/
structure LockSafe (commands : ι → SessionCommand)
    (x : Threads HostOps Error Unit ι (Table ι)) : Prop where
  /-- A process that waits for a lock holds none. -/
  waits : ∀ i digest64 k, x.thread i = .call (.lockGuard digest64) k →
    ∀ d, x.shared.holder d ≠ some i
  /-- A process that holds a lock holds no other one, has not ended and does not wait. -/
  holds : ∀ i digest64, x.shared.holder digest64 = some i →
    (∀ d, x.shared.holder d = some i → d = digest64) ∧
      ∃ o k, x.thread i = .call o k ∧ ∀ d, o ≠ .lockGuard d
  starts : ∀ i name spec k, x.thread i = .call (.runDetached name spec) k →
    ∃ root, x.shared.holder (gitRootDigest64 root) = some i ∧
      name = (workspaceAt root).containerName
  writes : ∀ i digest64 value k, x.thread i = .call (.writeToken digest64 value) k →
    x.shared.holder digest64 = some i
  /-- Without a lock `stop --all` stops a container that it was shown without a root. -/
  alters : ∀ i o k, x.thread i = .call o k → alters o = true →
    (∃ root, x.shared.holder (gitRootDigest64 root) = some i) ∨
      commands i = .stopAll ∧ ∃ name, o = .stopIgnore name ∧ ShownRootless (x.shared.calls i) name

/-- **The lock protocol.** In every interleaving of commands, whatever their calls answer, the locks
are safe: nobody waits in a circle, and what a command changes it changes under a lock. -/
theorem lock_protocol (commands : ι → SessionCommand)
    (x : Threads HostOps Error Unit ι (Table ι)) (h : Reachable (processes commands) x) :
    LockSafe commands x := by
  have hcall : ∀ i o k, x.thread i = .call o k →
      ∃ held, Disciplined (commands i) ⟨held, x.shared.calls i⟩ o ∧
        ∀ digest64, x.shared.holder digest64 = some i ↔ digest64 ∈ held := by
    intro i o k hthread
    obtain ⟨held, hwp, -, hheld⟩ := follows_of_reachable h i
    rw [hthread] at hwp
    exact ⟨held, hwp.1, hheld⟩
  constructor
  case waits =>
    intro i digest64 k hthread d hd
    obtain ⟨held, hdisciplined, hheld⟩ := hcall i _ k hthread
    obtain rfl : held = [] := hdisciplined.takes digest64 rfl
    exact List.not_mem_nil ((hheld d).1 hd)
  case holds =>
    intro i digest64 hd
    obtain ⟨held, hwp, hlength, hheld⟩ := follows_of_reachable h i
    have hmem := (hheld digest64).1 hd
    obtain ⟨d, rfl⟩ : ∃ d, held = [d] :=
      List.length_eq_one_iff.1 (le_antisymm hlength (List.length_pos_of_mem hmem))
    refine ⟨fun d' hd' => ?_, ?_⟩
    · rw [List.mem_singleton.1 ((hheld d').1 hd'), List.mem_singleton.1 hmem]
    · rcases hthread : x.thread i with a | e | ⟨o, k⟩
      · rw [hthread] at hwp
        cases hwp
      · rw [hthread] at hwp
        cases hwp
      · refine ⟨o, k, rfl, ?_⟩
        rintro d' rfl
        rw [hthread] at hwp
        cases hwp.1.takes d' rfl
  case starts =>
    intro i name spec k hthread
    obtain ⟨held, hdisciplined, hheld⟩ := hcall i _ k hthread
    obtain ⟨root, hroot, hname⟩ := hdisciplined.starts name spec rfl
    obtain rfl : held = [gitRootDigest64 root] := hroot
    exact ⟨root, (hheld _).2 List.mem_cons_self, hname⟩
  case writes =>
    intro i digest64 value k hthread
    obtain ⟨held, hdisciplined, hheld⟩ := hcall i _ k hthread
    obtain rfl : held = [digest64] := hdisciplined.writes digest64 value rfl
    exact (hheld _).2 List.mem_cons_self
  case alters =>
    intro i o k hthread halters
    obtain ⟨held, hdisciplined, hheld⟩ := hcall i o k hthread
    obtain ⟨root, hroot⟩ | hall := hdisciplined.alters halters
    · obtain rfl : held = [gitRootDigest64 root] := hroot
      exact .inl ⟨root, (hheld _).2 List.mem_cons_self⟩
    · exact .inr hall

/-! ### Two processes -/

/-- One process starts a server of Codex, and the other one stops all containers. -/
def demoCommands : Bool → SessionCommand
  | false => .start ⟨.codex, .none, false, ⟨none, none⟩, .utf8 demoRoot, []⟩
  | true => .stopAll

/-- What a process is answered in a world. -/
def demoAnswer (w : WorldState) (i : Bool) (x : Table Bool) (o : HostOp) : o.Ret × Table Bool :=
  let (r, holder) : o.Ret × (String → Option Bool) := match o with
    | .lockGuard digest64 =>
      if x.holder digest64 = none then (.ok (), Function.update x.holder digest64 (some i))
      else (.error demoLockError, x.holder)
    | .unlock digest64 => ((), if x.holder digest64 = some i then
        Function.update x.holder digest64 none else x.holder)
    | o => ((oblige w o).1, x.holder)
  (r, ⟨holder, Function.update x.calls i (x.calls i ++ [⟨o, r⟩])⟩)

theorem step_demoAnswer (w : WorldState) (i : Bool) (x : Table Bool) (o : HostOp) :
    (lockTable i).step x o (demoAnswer w i x o).1 (demoAnswer w i x o).2 := by
  refine ⟨?_, rfl⟩
  cases o with
  | lockGuard digest64 =>
    by_cases hfree : x.holder digest64 = none
    · simp only [demoAnswer, if_pos hfree]
      exact .inl ⟨rfl, hfree, rfl⟩
    · simp only [demoAnswer, if_neg hfree]
      exact .inr ⟨rfl, rfl⟩
  | _ => rfl

/-- The next call of a process is one of `P`. -/
def begins (P : HostOp → Bool) : Command Unit → Bool
  | .call o _ => P o
  | _ => false

def writesToken : HostOp → Bool
  | .writeToken _ _ => true
  | _ => false

def startsServer : HostOp → Bool
  | .runDetached _ _ => true
  | _ => false

def stopsContainer : HostOp → Bool
  | .stopIgnore _ => true
  | _ => false

/-- Only a container without a root is there. -/
def demoAlone : WorldState := { demoWorld with podman := ⟨[demoUnrooted], by decide⟩ }

def demoTable : Table Bool := ⟨fun _ => none, fun _ => []⟩

/-- A process comes to its first call of `P` while the other one waits. -/
theorem reachable_begins (w : WorldState) (i : Bool) (P : HostOp → Bool)
    {x : Threads HostOps Error Unit Bool (Table Bool)} (h : Reachable (processes demoCommands) x) :
    Reachable (processes demoCommands)
      ⟨(upTo (fun o => !P o) (demoAnswer w i) (x.thread i) x.shared).2, Function.update x.thread i
        (upTo (fun o => !P o) (demoAnswer w i) (x.thread i) x.shared).1⟩ := by
  refine Reachable.restrict (fun _ _ => trivial) (reachable_upTo (I := fun _ => True)
    (fun x o _ _ => ⟨step_demoAnswer w i x o, trivial⟩) (x.thread i) h.of_restrict rfl trivial)

/-- A process writes a token under its lock; later it starts its server under the lock, while
another process stops a container without a root. -/
theorem lock_protocol_demo : ∃ x y : Threads HostOps Error Unit Bool (Table Bool),
    Reachable (processes demoCommands) x ∧ begins writesToken (x.thread false) = true ∧
      LockSafe demoCommands x ∧
    Reachable (processes demoCommands) y ∧ begins startsServer (y.thread false) = true ∧
      begins stopsContainer (y.thread true) = true ∧ LockSafe demoCommands y := by
  have hinit : Reachable (processes demoCommands)
      ⟨demoTable, fun i => (demoCommands i).program⟩ :=
    .init ⟨⟨fun _ => rfl, fun _ => rfl⟩, fun _ => rfl⟩
  have hwriting := reachable_begins demoWorld false writesToken hinit
  have hstarting := reachable_begins demoWorld false startsServer hinit
  have hstopping := reachable_begins demoAlone true stopsContainer hstarting
  refine ⟨_, _, hwriting, ?_, lock_protocol _ _ hwriting, hstopping, ?_, ?_,
    lock_protocol _ _ hstopping⟩
  · decide +kernel
  · decide +kernel
  · decide +kernel

end Agentbox.Commands.LockProtocol
