import Agentbox.Commands.SingleServer
import Agentbox.Workspace.Toplevel

/-! # What a restart carries over

A server is launched with the settings that it was asked for. A restart reads them back from the
labels of the container that it stops, and launches the replacement with them, as far as its own
overrides leave them as they are: so a series of restarts ends with a server of the root, the
runtime and the arguments that the first one was started with. -/

namespace Agentbox.Commands.RestartPreserves

open Agentbox.Base.Path Agentbox.Base.Errors Agentbox.Config.Limits Agentbox.Files.Snapshot
  Agentbox.Lib.Program Agentbox.Lib.Transition Agentbox.Podman.Model Agentbox.Podman.State
  Agentbox.Runtime.Kind Agentbox.Runtime.Spec Agentbox.Workspace.Identity
  Agentbox.Workspace.Toplevel Agentbox.Session.Record Agentbox.Session.Restartable
  Agentbox.Session.Target Agentbox.Session.TargetView Agentbox.Session.RootContainers
  Agentbox.Commands.HostCalls Agentbox.Commands.WorkspaceFlow
  Agentbox.Commands.CodexAttachAuth Agentbox.Commands.RuntimeCommand
  Agentbox.Commands.ContainerCleanup Agentbox.Commands.ContainerLaunch
  Agentbox.Commands.DetachedServer Agentbox.Commands.Start Agentbox.Commands.Restart
  Agentbox.Commands.LaunchLabels Agentbox.Commands.RoundTrip Agentbox.Commands.Quiet
  Agentbox.Commands.World Agentbox.Commands.Obliging Agentbox.Commands.RestartSafety
  Agentbox.Commands.SingleServer Agentbox.DevEnv.Environment
open Agentbox.Session.Selection (exactGitRootMatches)
open Agentbox.Session.Collected (some_beq_some belongs)
open Agentbox.Session.Claimants (shown)
open Agentbox.Session.ScopedDiscovery (demoRoot)
open Agentbox.Session.ConnectView (demoWorkspace)

/-! ### Settings -/

/-- What a server is asked for. -/
structure Settings where
  gitRoot : Utf8Path
  runtime : RuntimeKind
  launchDirectory : Utf8Path
  serverArgs : List String
  limits : ResourceLimits

/-- The limits with a zero for one that is not given. -/
def orZero (limits : ResourceLimits) : ResourceLimits :=
  ⟨some (limits.cpus.getD .zero), some (limits.memory.getD .zero)⟩

/-- The settings of a restart: a directory is where `realpath` finds it now. -/
def Settings.restarted (settings : Settings) (args : RestartArgs) (host : Host) : Settings :=
  { settings with
    launchDirectory := (host.canonicalizeUtf8Path settings.launchDirectory).toOption.getD
      settings.launchDirectory
    limits := settings.limits.overlay args.overrides }

/-- The container of a specification has the settings, in its labels and in what it runs. -/
structure Carries (settings : Settings) (spec : RuntimeRunSpec) (c : PodmanContainer) : Prop where
  gitRoot : (SessionMetadata.mk c.labels).canonicalGitRoot = some settings.gitRoot
  gitRoot_isNormal : settings.gitRoot.IsNormal
  runtime : (SessionMetadata.mk c.labels).runtimeKind = some settings.runtime
  launchDirectory : (SessionMetadata.mk c.labels).launchDirectory = some settings.launchDirectory
  launchDirectory_isAbsolute : settings.launchDirectory.isAbsolute = true
  serverArgs : (SessionMetadata.mk c.labels).serverArgs = .ok settings.serverArgs
  limits : (SessionMetadata.mk c.labels).storedResourceLimits = .ok (orZero settings.limits)
  enforced : spec.create.resourceLimits.podmanArgs = settings.limits.podmanArgs
  workdir : c.workdir = settings.launchDirectory
  command : ∃ devEnv token invocation, serverRuntimeCommand settings.runtime
    settings.launchDirectory devEnv token settings.serverArgs = .ok invocation ∧
      c.command = invocation.argv

def requestSettings (request : RuntimeLaunchRequest) : Settings :=
  ⟨request.workspace.canonicalGitRoot, request.runtime, request.workspace.canonicalTarget,
    request.serverArgs, request.resourceLimits⟩

/-- Limits that are all given leave nothing to the defaults. -/
theorem orZero_overlay (limits defaults : ResourceLimits) (overrides : ResourceLimitOverrides) :
    orZero ⟨(overrides.cpus.or (orZero limits).cpus).or defaults.cpus,
      (overrides.memory.or (orZero limits).memory).or defaults.memory⟩ =
        orZero (limits.overlay overrides) := by
  obtain ⟨cpus, memory⟩ := overrides
  cases cpus <;> cases memory <;> rfl

variable {settings settings' : Settings} {spec : RuntimeRunSpec} {c : PodmanContainer}
  {request : RuntimeLaunchRequest} {prep : RuntimeLaunchPreparation} {name : String}

/-- Limits that differ in a zero are the same. -/
theorem Carries.congr_limits {limits : ResourceLimits}
    (h : Carries { settings with limits } spec c)
    (hlimits : orZero limits = orZero settings.limits) :
    Carries settings spec c := by
  have hargs : limits.podmanArgs = settings.limits.podmanArgs := by
    rw [← podmanArgs_getD_zero limits, ← podmanArgs_getD_zero settings.limits]
    exact congrArg ResourceLimits.podmanArgs hlimits
  exact { h with limits := h.limits.trans (congrArg _ hlimits), enforced := h.enforced.trans hargs }

theorem launchRunSpec_create {preparation : ContainerLaunchPreparation}
    {invocation : RuntimeInvocation} {passthrough : Passthrough} :
    (launchRunSpec request preparation invocation passthrough).create.command = invocation.argv ∧
      (launchRunSpec request preparation invocation passthrough).workdir = invocation.workdir ∧
      (launchRunSpec request preparation invocation passthrough).create.resourceLimits =
        request.resourceLimits := by
  unfold launchRunSpec recordManagedResourceLimits recordRuntimeImageVersion
  split_ifs
  · split
    · exact ⟨rfl, rfl, rfl⟩
    · exact ⟨rfl, rfl, rfl⟩
  · split
    · exact ⟨rfl, rfl, rfl⟩
    · exact ⟨rfl, rfl, rfl⟩

theorem workdir_serverRuntimeCommand {runtime : RuntimeKind} {target : Utf8Path}
    {devEnv : DevEnvironment} {token : Option CodexAttachToken} {serverArgs : List String}
    {invocation : RuntimeInvocation}
    (h : serverRuntimeCommand runtime target devEnv token serverArgs = .ok invocation) :
    invocation.workdir = target := by
  unfold serverRuntimeCommand at h
  split at h
  · cases h
  · cases h
    rfl
  · cases h
    rfl

/-- A managed server that is started as it was prepared carries the settings of the request. -/
theorem carries_of_isRun (hresolved : IsResolved request.workspace)
    (hmode : request.policy.runMode = .managedSession) (hprep : IsPrepared request prep)
    (hrun : IsRun name prep.runSpec c) : Carries (requestSettings request) prep.runSpec c := by
  have hserver : ServerLabels request c.labels := by
    obtain ⟨image, himage⟩ := hrun.labels
    rw [himage]
    exact (hprep.serverLabels (by rw [hmode]; decide)).union image
  obtain ⟨preparation, invocation, passthrough, hcommand, hspec⟩ := hprep
  obtain ⟨hargv, hworkdir, hlimits⟩ := hspec ▸ @launchRunSpec_create request preparation invocation
    passthrough
  refine ⟨canonicalGitRoot_server hresolved hserver, hresolved.gitRoot_isNormal,
    runtimeKind_server hresolved hserver, launchDirectory_server hresolved hserver,
    hresolved.target_isAbsolute, serverArgs_managed hserver hmode,
    storedResourceLimits_getD_zero hserver hmode, congrArg _ hlimits, ?_, ?_⟩
  · rw [hrun.workdir, hworkdir, workdir_serverRuntimeCommand hcommand]
    rfl
  · exact ⟨_, _, _, hcommand, hrun.command.trans hargv⟩

/-! ### The calls of a restart -/

/-- What the calls of a restart under the lock of a root have to do with the session that is
selected there. -/
structure Replaces (args : RestartArgs) (s : PodmanState) (host : Host) (locked : Utf8Path)
    (w : WorldState) (o : HostOp) : Prop where
  stops : ∀ name, o = .stopIgnore name → w.podman = s ∧ w.host = host ∧
    ∃ session, candidateIn host host.gitRootProbe s locked args.target = .ok session ∧
      name = session.containerName
  launches : ∀ name spec, o = .runDetached name spec →
    ∃ session restart workspace stored defaults prep,
    candidateIn host host.gitRootProbe s locked args.target = .ok session ∧
    prepareRestartSession args.target.display session = .ok restart ∧
    restartWorkspaceOf host locked restart.session restart.launchDirectory = .ok workspace ∧
    restart.session.metadata.storedResourceLimits = .ok stored ∧
    IsPrepared (replacementServerLaunchRequest workspace restart.runtime args.devEnv args.connect
      restart.serverArgs ⟨(args.overrides.cpus.or stored.cpus).or (ResourceLimits.cpus defaults),
        (args.overrides.memory.or stored.memory).or defaults.memory⟩) prep ∧
    spec = prep.runSpec

variable {args : RestartArgs} {s : PodmanState} {host : Host} {locked : Utf8Path}
  {w w' : WorldState} {o : HostOp} {t : List (Event HostOps WorldState)} {res : Except Error Unit}

theorem replaces_of_other (hstop : ∀ name, o ≠ .stopIgnore name) (hrun : launches o = false) :
    Replaces args s host locked w o where
  stops name h := absurd h (hstop name)
  launches name spec h := by
    rw [h] at hrun
    cases hrun

theorem replaces_of_keepsContainers (h : keepsContainers o = true) :
    Replaces args s host locked w o := by
  refine replaces_of_other ?_ (launches_of_keepsContainers h)
  rintro name rfl
  cases h

theorem wp_restartLocked_replaces {plan : RestartSessionTargetPlan}
    (hplan : plan.input = args.target)
    (hw : Locked s host (gitRootDigest64 plan.lockGitRoot) w) :
    wp (worldMachine LocksWorld) (Replaces args s host plan.lockGitRoot) (restartLocked args plan)
      (fun _ _ => True) w := by
  have hΦ : ∀ (w : WorldState) (o : HostOps.Op), keepsContainers o = true →
      Replaces args s host plan.lockGitRoot w o := fun _ _ ho => replaces_of_keepsContainers ho
  refine wp_restartLocked_rule hΦ hplan hw fun session w1 hcandidate hw1 => ?_
  refine wp_restartSession_rule hΦ hw1 fun restart workspace stored defaults prep w2 hprepare
    hworkspace hstored hprep hw2 => ?_
  have hsession := (prepareRestartSession_eq_ok hprepare).1
  -- the stop is the first call, and what follows it does not stop anything
  refine (wp_bind _ _ _ _).2 ((wp_bind _ _ _ _).2 ((wp_bind _ _ _ _).2 ((wp_attempt _ _ _).2
    ⟨⟨?_, ?_⟩, fun r w3 _ => (wp_ofExcept _ _).2 ?_⟩)))
  · rintro name ⟨⟩
    exact ⟨hw2.podman, hw2.host, session, hcandidate, by rw [hsession]⟩
  · rintro name spec ⟨⟩
  have hrest : ∀ {α : Type} {p : Command α} {w : WorldState},
      Only (S := HostOps) (fun o => ∀ w, Replaces args s host plan.lockGitRoot w o) p →
        wp (worldMachine LocksWorld) (Replaces args s host plan.lockGitRoot) p (fun _ _ => True)
          w := by
    intro α p w hp
    exact wp_mono (wp_of_always (I := fun _ => True) (fun w _ ho _ => ho w)
      (fun _ _ _ _ _ _ _ => trivial) hp trivial) fun _ _ _ => trivial
  have hquiet : ∀ o : HostOp, isQuiet o = true → ∀ w, Replaces args s host plan.lockGitRoot w o :=
    fun o ho w => replaces_of_keepsContainers (keepsContainers_of_isQuiet ho)
  refine wp_mono (hrest (.bind (Only.weaken (quiet_containerExists _).attempt hquiet)
    fun _ => only_done _)) ?_
  rintro (e | cleanup) w4 -
  · trivial
  unfold andThen
  simp only
  split
  · trivial
  · refine hrest (only_executeManagedServerLaunch
      (fun o ho => hquiet o (isQuiet_of_isReading ho)) (fun w => ?_)
      (Only.weaken (quiet_restartPolicy_checkInterrupted _ _) hquiet) _ _)
    refine ⟨fun name h => (by cases h), ?_⟩
    rintro name spec ⟨⟩
    exact ⟨session, restart, workspace, stored, defaults, prep, hcandidate, hprepare, hworkspace,
      hstored, hprep, rfl⟩

/-- All calls of a restart have to do with one session, that of the lock that it takes. -/
theorem exec_restartTarget
    (h : Exec (worldMachine LocksWorld) (restartTarget args) w t w' res) (hw : w.held = []) :
    ∃ s host locked, ∀ e ∈ t, Replaces args s host locked e.pre e.op := by
  have hquiet : ∀ {α : Type} {p : Command α} {w1 : WorldState}
      {t1 : List (Event HostOps WorldState)} {r : Except Error α} (s : PodmanState) (host : Host) (locked : Utf8Path), IsQuiet p →
      Exec (worldMachine LocksWorld) p w t1 w1 r →
        ∀ e ∈ t1, Replaces args s host locked e.pre e.op := by
    intro α p w1 t1 r s host locked hp h1 e he
    exact replaces_of_keepsContainers (keepsContainers_of_isQuiet ((exec_quiet hp h1).2 e he))
  have hresolve := always_resolveRestart args.target
  have hplanQuiet : IsQuiet (RestartSessionTargetPlan.resolve readHost discoverAgentboxContainers
    args.target) := always_mono hresolve fun _ _ => trivial
  obtain ⟨_, rfl, h1⟩ | ⟨plan, w1, t1, t2, rfl, h1, h2⟩ := exec_bind.1 h
  · exact ⟨w.podman, w.host, ⟨""⟩, hquiet _ _ _ hplanQuiet h1⟩
  have hplan : plan.input = args.target := (h1.of_always hresolve).1 plan rfl
  have hheld : w1.held = [] := (exec_quiet hplanQuiet h1).1.trans hw
  obtain ⟨_, rfl, -, -⟩ | ⟨w2, t3, w3, rfl, hlock, hexec, -⟩ := exec_withGuard h2
  · refine ⟨w.podman, w.host, ⟨""⟩, fun e he => ?_⟩
    obtain he | he := List.mem_append.1 he
    · exact hquiet _ _ _ hplanQuiet h1 e he
    · rw [List.mem_singleton.1 he]
      exact replaces_of_other (fun _ h => by cases h) rfl
  obtain ⟨w4, ⟨⟨_, he⟩, -⟩ | ⟨-, rfl⟩, -, hsame⟩ := hlock
  · cases he
  obtain rfl := hsame (List.cons_ne_nil _ _)
  refine ⟨w1.podman, w1.host, plan.lockGitRoot, fun e he => ?_⟩
  have hlocked := (hexec.of_wp (wp_restartLocked_replaces hplan ⟨rfl, rfl, by rw [hheld]⟩)).2
  obtain he | he := List.mem_append.1 he
  · exact hquiet _ _ _ hplanQuiet h1 e he
  obtain rfl | he := List.mem_cons.1 he
  · exact replaces_of_other (fun _ h => by cases h) rfl
  obtain he | he := List.mem_append.1 he
  · exact hlocked e he
  · rw [List.mem_singleton.1 he]
    exact replaces_of_other (fun _ h => by cases h) rfl

/-! ### Runs of restarts -/

/-- A container that a call of the trace makes of the specification. -/
def Started (t : List (Event HostOps WorldState)) (spec : RuntimeRunSpec) (c : PodmanContainer) :
    Prop :=
  ∃ e ∈ t, ∃ name, e.op = .runDetached name spec ∧ IsRun name spec c

/-- The container is stopped by a call of the trace, on the host. -/
def StoppedBy (t : List (Event HostOps WorldState)) (host : Host) (c : PodmanContainer) : Prop :=
  ∃ e ∈ t, ∃ name, e.op = .stopIgnore name ∧ name ∈ c.refs ∧ c ∈ e.pre.podman.containers ∧
    e.pre.host = host

structure Server where
  settings : Settings
  spec : RuntimeRunSpec
  container : PodmanContainer

/-- A start of a server, and restarts of it. Between them anything may happen that leaves the
container's labels as they are. -/
def restarts : System Server (RestartArgs × Host) where
  init x := ∃ (args : StartArgs) (limits : ResourceLimits) (workspace : WorkspaceIdentity)
    (w w' : WorldState) (t : List (Event HostOps WorldState)) (res : Except Error Unit),
    Exec (worldMachine LocksWorld) (startLocked args limits workspace) w t w' res ∧
      IsResolved workspace ∧ Started t x.spec x.container ∧
      x.settings = requestSettings (managedServerLaunchRequest workspace args.runtime args.devEnv
        args.connect args.agentArgs limits)
  step x restart y := ∃ (w w' : WorldState) (t : List (Event HostOps WorldState))
    (res : Except Error Unit),
    Exec (worldMachine LocksWorld) (restartTarget restart.1) w t w' res ∧ w.held = [] ∧
      StoppedBy t restart.2 x.container ∧ Started t y.spec y.container ∧
      y.settings = x.settings.restarted restart.1 restart.2

variable {x y x0 : Server} {label : RestartArgs × Host} {session : SessionRecord}
  {probe : GitRootProbe}

/-- The directory of a workspace that was asked for by an absolute path is what `realpath` makes of
it. -/
theorem canonicalTarget_of_resolve {directory : Utf8Path} {workspace : WorkspaceIdentity}
    (h : resolveWorkspaceIdentity host (.utf8 directory) = .ok workspace)
    (habs : directory.isAbsolute = true) :
    host.canonicalizeUtf8Path directory = .ok workspace.canonicalTarget := by
  have htarget : host.absoluteUtf8Path (.utf8 directory) = .ok directory := if_pos habs
  rcases hroot : host.resolveToplevel directory with e | root
  · simp only [resolveWorkspaceIdentity, htarget, hroot, bind, Except.bind] at h
    cases h
  · obtain ⟨t, r, ht, -, -, rfl⟩ := (resolveWorkspaceIdentity_eq_ok_iff htarget hroot _).1 h
    exact canonicalizeUtf8Path_eq_ok_iff.2 ht

/-- What a start launches is what it prepared. -/
theorem always_startLocked (args : StartArgs) (limits : ResourceLimits)
    (workspace : WorkspaceIdentity) : Only (S := HostOps) (fun o => ∀ name spec,
      o = HostOp.runDetached name spec → ∃ prep, IsPrepared (managedServerLaunchRequest workspace
        args.runtime args.devEnv args.connect args.agentArgs limits) prep ∧ spec = prep.runSpec)
      (startLocked args limits workspace) := by
  have hother : ∀ o : HostOp, launches o = false → ∀ name spec, o = .runDetached name spec →
      ∃ prep, IsPrepared (managedServerLaunchRequest workspace args.runtime args.devEnv args.connect
        args.agentArgs limits) prep ∧ spec = RuntimeLaunchPreparation.runSpec prep := by
    rintro o ho name spec rfl
    cases ho
  have hprepare := Only.weaken (keepsContainers_prepareRuntimeLaunch (managedServerLaunchRequest
    workspace args.runtime args.devEnv args.connect args.agentArgs limits))
    fun o ho => hother o (launches_of_keepsContainers ho)
  refine always_bind (always_and hprepare (isPrepared_always _)) (fun _ _ => trivial)
    fun prep hprepared => ?_
  refine Only.bind (Only.weaken (reading_volumeExists _) fun o ho =>
    hother o (launches_of_isReading ho)) fun existed => ?_
  refine only_executeManagedServerLaunch (fun o ho => hother o (launches_of_isReading ho)) ?_
    (Only.weaken (startsNone_startPolicy existed) hother) _ _
  rintro name spec ⟨⟩
  exact ⟨prep, hprepared prep rfl, rfl⟩

theorem carries_of_init (h : restarts.init x) : Carries x.settings x.spec x.container := by
  obtain ⟨args, limits, workspace, w, w', t, res, hexec, hresolved, ⟨e, he, name, hop, hrun⟩,
    hset⟩ := h
  obtain ⟨prep, hprep, hspec⟩ := (hexec.of_always (always_startLocked args limits workspace)).2 e he
    name x.spec hop
  rw [hset, hspec]
  exact carries_of_isRun hresolved rfl hprep (hspec ▸ hrun)

theorem metadata_eq (h : IsSessionOf probe c session) : session.metadata = ⟨c.labels⟩ := by
  obtain ⟨kind, -, rfl | rfl⟩ := h
  · rfl
  · rfl

/-- The root of the selected session is the one that is locked. -/
theorem candidateIn_gitRoot {input : SessionTargetInput} {root : Utf8Path}
    (h : candidateIn host probe s locked input = .ok session)
    (hroot : session.canonicalGitRoot = some root) : (root == locked) = true := by
  rw [candidateIn_eq_ok] at h
  unfold matchingIn at h
  obtain ⟨resolved, -, h⟩ := bind_eq_ok.1 h
  rcases resolved with gitRoot | gitRoot | idPrefix
  · obtain ⟨_, -, hview⟩ := bind_eq_ok.1 h
    have hmem := view_forGitRoot_eq hview ▸ List.mem_singleton_self session
    obtain ⟨r, hr, hsession⟩ := mem_markDuplicate hmem
    have hbelongs := (List.mem_filter.1 hr).2
    have hlabel : r.canonicalGitRoot = some root := by
      obtain rfl | rfl := hsession
      · exact hroot
      · exact hroot
    rw [belongs, hlabel, some_beq_some] at hbelongs
    simpa using hbelongs
  · obtain ⟨_, hsame, hmatches⟩ := bind_eq_ok.1 h
    have hfilter : exactGitRootMatches (shown probe s) gitRoot = [session] := Except.ok.inj hmatches
    have hselected := (List.mem_filter.1 (hfilter ▸ List.mem_singleton_self session)).2
    rw [hroot, some_beq_some] at hselected
    rw [Utf8Path.beq_iff] at hselected ⊢
    rw [hselected, Utf8Path.beq_iff.1 (beq_of_unchanged hsame)]
  · obtain ⟨selection, -, h⟩ := bind_eq_ok.1 h
    obtain ⟨_, hstill, hsessions⟩ := bind_eq_ok.1 h
    have hsessions : selection.sessions = [session] := Except.ok.inj hsessions
    unfold requireStableIdStillMatchesLockedRoot at hstill
    split_ifs at hstill with hany
    rw [hsessions, List.any_cons, List.any_nil, Bool.or_false, hroot, some_beq_some] at hany
    exact hany

/-- **The step lemma.** A restart launches what it reads back from the container that it stops. -/
theorem carries_of_step (hx : Carries x.settings x.spec x.container)
    (h : restarts.step x label y) : Carries y.settings y.spec y.container := by
  obtain ⟨w, w', t, res, hexec, hw, ⟨stop, hstop, stopped, hstopOp, href, hmem, hhost⟩,
    ⟨run, hrun, name, hrunOp, hisRun⟩, hset⟩ := h
  obtain ⟨s, host, locked, hreplaces⟩ := exec_restartTarget hexec hw
  obtain ⟨hs, hhost', session, hcandidate, rfl⟩ := (hreplaces stop hstop).stops stopped hstopOp
  obtain ⟨session', restart, workspace, stored, defaults, prep, hcandidate', hprepare, hworkspace,
    hstored, hprep, hspec⟩ := (hreplaces run hrun).launches name y.spec hrunOp
  obtain rfl : session = session' := Except.ok.inj (hcandidate.symm.trans hcandidate')
  -- the session is that of the container which is stopped
  obtain ⟨-, -, ⟨c, hc, hof, -⟩, -⟩ := candidateIn_claimants hcandidate
  have hsame : c = x.container := PodmanState.eq_of_mem_refs hc (hs ▸ hmem)
    (hof.containerName_eq ▸ c.containerName_mem_refs) href
  subst hsame
  have hmetadata := metadata_eq hof
  obtain ⟨hsession, -, -, hruntime, hdirectory, hargs⟩ := prepareRestartSession_eq_ok hprepare
  rw [SessionRecord.runtimeKind, hmetadata, hx.runtime, Option.some.injEq] at hruntime
  rw [SessionRecord.launchDirectory, hmetadata, hx.launchDirectory, Option.some.injEq] at hdirectory
  rw [hmetadata, hx.serverArgs, Except.ok.injEq] at hargs
  rw [hsession, hmetadata, hx.limits, Except.ok.injEq] at hstored
  obtain ⟨hresolve, hlocked⟩ := restartWorkspaceOf_eq_ok hworkspace
  have hresolved := isResolved_of_ok hresolve
  have hroot : x.settings.gitRoot = workspace.canonicalGitRoot := by
    have hlabel : session.canonicalGitRoot = some x.settings.gitRoot := by
      rw [SessionRecord.canonicalGitRoot, hmetadata, hx.gitRoot]
    exact Utf8Path.eq_of_beq hx.gitRoot_isNormal hresolved.gitRoot_isNormal
      (hlocked ▸ candidateIn_gitRoot hcandidate hlabel)
  have htarget : label.2.canonicalizeUtf8Path x.settings.launchDirectory =
      .ok workspace.canonicalTarget := by
    rw [← hhost, hhost', hdirectory]
    exact canonicalTarget_of_resolve hresolve (hdirectory ▸ hx.launchDirectory_isAbsolute)
  have hcarries := carries_of_isRun hresolved rfl hprep (hspec ▸ hisRun)
  rw [hset, hspec]
  refine @Carries.congr_limits _ _ _ ⟨(label.1.overrides.cpus.or stored.cpus).or defaults.cpus,
    (label.1.overrides.memory.or stored.memory).or defaults.memory⟩ ?_ ?_
  · rw [Settings.restarted, htarget]
    simp only [hroot, hruntime, hargs]
    exact hcarries
  · rw [← hstored]
    exact orZero_overlay _ _ _

/-- The launch directory is still its own `realpath`. -/
def StaysPut (x : Server) (restart : RestartArgs × Host) : Prop :=
  restart.2.canonicalizeUtf8Path x.settings.launchDirectory = .ok x.settings.launchDirectory

/-- **What restarts carry over.** However often a server is restarted, the container carries the
root, the runtime and the arguments of the start, the limits that were asked for last and the launch
directory as `realpath` finds it; where that is its own `realpath`, it is the directory of the
start. -/
theorem restarts_carry (x0 x : Server) (h0 : restarts.init x0) (h : restarts.Steps x0 x) :
    Carries x.settings x.spec x.container ∧ x.settings.gitRoot = x0.settings.gitRoot ∧
      x.settings.runtime = x0.settings.runtime ∧ x.settings.serverArgs = x0.settings.serverArgs ∧
      ((restarts.restrict StaysPut).Steps x0 x →
        x.settings.launchDirectory = x0.settings.launchDirectory) := by
  have hcarries : Carries x.settings x.spec x.container ∧
      x.settings.gitRoot = x0.settings.gitRoot ∧
      x.settings.runtime = x0.settings.runtime ∧
      x.settings.serverArgs = x0.settings.serverArgs := by
    induction h with
    | refl => exact ⟨carries_of_init h0, rfl, rfl, rfl⟩
    | tail _ hstep ih =>
      obtain ⟨hx, hroot, hruntime, hargs⟩ := ih
      have hy := carries_of_step hx hstep
      obtain ⟨w, w', t, res, -, -, -, -, hset⟩ := hstep
      rw [hset] at hy ⊢
      exact ⟨hy, hroot, hruntime, hargs⟩
  obtain ⟨hx, hroot, hruntime, hargs⟩ := hcarries
  refine ⟨hx, hroot, hruntime, hargs, fun hstays => ?_⟩
  clear h hx hroot hruntime hargs
  induction hstays with
  | refl => rfl
  | tail hsteps hstep ih =>
    obtain ⟨hput, w, w', t, res, -, -, -, -, hset⟩ := hstep
    rw [hset, Settings.restarted, hput]
    exact ih

/-! ### A server that is restarted -/

def demoStart : StartArgs := ⟨.opencode, .none, false, ⟨none, none⟩, .utf8 demoRoot, []⟩

def demoServerOf : Server where
  settings := requestSettings (demoRequest (.managedServer false))
  spec := (demoPreparation (.managedServer false)).runSpec
  container := demoServer (.managedServer false)

theorem init_demo : restarts.init demoServerOf := by
  obtain ⟨t, hprepare⟩ : ∃ t, Exec (worldMachine Eq) (prepareRuntimeLaunch (demoRequest
    (.managedServer false))) demoWorld t demoWorld (.ok (demoPreparation (.managedServer false))) :=
    exec_demo
  set launch : RuntimeLaunchPreparation → Command Unit := fun prep =>
    (volumeExists demoWorkspace.containerName).bind fun existed =>
      executeManagedServerLaunch demoWorkspace .opencode prep.runSpec prep.codexAttachToken
        (startServerLaunchPolicy demoWorkspace existed)
        ⟨"newly created", false, demoWorkspace.canonicalTarget, demoWorkspace.requestedTarget⟩
    with hlaunch
  have hexec := hprepare.bind_ok (exec_run (fun w => Eq.refl w)
    (launch (demoPreparation (.managedServer false))) demoWorld)
  refine ⟨demoStart, (demoRequest (.managedServer false)).resourceLimits, demoWorkspace, _, _, _, _,
    hexec.mono fun w o r w' hstep => ?_, isResolved_of_ok resolve_demo, ?_, rfl⟩
  · obtain ⟨w1, hserves, rfl⟩ := hstep
    exact ⟨w1, hserves, rfl, fun _ => rfl⟩
  · exact ⟨_, List.mem_append_right _ (List.mem_cons_of_mem _ (List.mem_cons_of_mem _
      List.mem_cons_self)), _, rfl, isRun_started _ _⟩

def changesContainers : HostOp → Bool
  | .stopIgnore _ | .runDetached _ _ => true
  | _ => false

/-- Before the first stop or start the containers are those of the first moment. -/
theorem podman_of_find {α : Type} {p : Command α} {r : Except Error α}
    {e : Event HostOps WorldState}
    (h : Exec (worldMachine Eq) p w t w' r)
    (he : t.find? (fun e => changesContainers e.op) = some e) :
    e.pre.podman = w.podman ∧ e.pre.host = w.host := by
  refine h.pre_of_find (I := fun x => x.podman = w.podman ∧ x.host = w.host) ⟨rfl, rfl⟩
    (fun e he hop hpre => ?_) he
  obtain ⟨w1, hserves, hsame⟩ := h.step_of_mem he
  rw [← hsame]
  rcases e with ⟨pre, o, ret, post⟩
  cases o with
  | stopIgnore name => cases hop
  | runDetached name spec => cases hop
  | lockGuard digest64 =>
    obtain ⟨-, rfl⟩ | ⟨-, rfl⟩ := hserves
    · exact hpre
    · exact hpre
  | unlock digest64 =>
    obtain rfl : w1 = _ := hserves
    exact hpre
  | _ =>
    obtain ⟨hpodman, hhost, -⟩ := serves_keepsContainers rfl hserves
    exact ⟨hpodman.trans hpre.1, hhost.trans hpre.2⟩

/-- The restart stops the demo server, and starts another one. -/
def restartsDemo (t : List (Event HostOps WorldState)) : Bool :=
  t.any (fun e => launches e.op) && (t.find? fun e => changesContainers e.op).any fun e =>
    match e.op with
    | .stopIgnore name => (demoServer (.managedServer false)).refs.contains name
    | _ => false

theorem restart_demo : ∃ y, restarts.step demoServerOf (demoRestart, demoHost) y := by
  have hexec := exec_run (fun w => Eq.refl w) (restartTarget demoRestart) demoRunning
  have hdemo : restartsDemo ((restartTarget demoRestart).run oblige demoRunning).2.2 = true := by
    decide +kernel
  obtain ⟨hlaunched, hstopped⟩ := Bool.and_eq_true_iff.1 hdemo
  obtain ⟨run, hrun, hlaunches⟩ := List.any_eq_true.1 hlaunched
  obtain ⟨stop, hfind, hname⟩ := (Option.any_eq_true _ _).1 hstopped
  obtain ⟨hpodman, hhost⟩ := podman_of_find hexec hfind
  have hlocks : Exec (worldMachine LocksWorld) (restartTarget demoRestart) demoRunning
      ((restartTarget demoRestart).run oblige demoRunning).2.2
      ((restartTarget demoRestart).run oblige demoRunning).2.1
      ((restartTarget demoRestart).run oblige demoRunning).1 := by
    refine hexec.mono fun w o r w' hstep => ?_
    obtain ⟨w1, hserves, rfl⟩ := hstep
    exact ⟨w1, hserves, rfl, fun _ => rfl⟩
  have hstop : StoppedBy ((restartTarget demoRestart).run oblige demoRunning).2.2 demoHost
      demoServerOf.container := by
    split at hname
    · next name hop =>
      refine ⟨stop, List.mem_of_find?_eq_some hfind, name, hop, List.contains_iff_mem.1 hname, ?_,
        hhost⟩
      rw [hpodman]
      exact List.mem_cons_self
    · cases hname
  obtain ⟨name, spec, hop⟩ : ∃ name spec, run.op = HostOp.runDetached name spec := by
    unfold launches at hlaunches
    split at hlaunches
    · next name spec hop => exact ⟨name, spec, hop⟩
    · cases hlaunches
  exact ⟨⟨_, spec, started name spec⟩, _, _, _, _, hlocks, rfl, hstop,
    ⟨run, hrun, name, hop, isRun_started _ _⟩, rfl⟩

/-- The demo server is started and restarted. -/
theorem restarts_carry_demo : ∃ x, restarts.Steps demoServerOf x ∧
    Carries x.settings x.spec x.container ∧ x.settings.gitRoot = demoServerOf.settings.gitRoot ∧
    x.settings.runtime = demoServerOf.settings.runtime ∧
    x.settings.serverArgs = demoServerOf.settings.serverArgs ∧
    x.settings.launchDirectory = demoServerOf.settings.launchDirectory := by
  obtain ⟨y, hstep⟩ := restart_demo
  have hsteps : restarts.Steps demoServerOf y := .tail (.refl _) hstep
  have hput : StaysPut demoServerOf (demoRestart, demoHost) := by rfl
  have hstays : (restarts.restrict StaysPut).Steps demoServerOf y := .tail (.refl _) ⟨hput, hstep⟩
  obtain ⟨hcarries, hroot, hruntime, hargs, hdirectory⟩ :=
    restarts_carry demoServerOf y init_demo hsteps
  exact ⟨y, hsteps, hcarries, hroot, hruntime, hargs, hdirectory hstays⟩

end Agentbox.Commands.RestartPreserves
