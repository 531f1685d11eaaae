import Agentbox.Commands.RoundTrip
import Agentbox.Session.TargetView

/-! # What a restart stops

A restart resolves its target, takes the lock of the root it found, and resolves the target again.
While it has the lock nothing else changes. Whatever the world was before, the session that it stops
is the one that the target selects under the lock, and it passes every check there. -/

namespace Agentbox.Commands.RestartSafety

open Agentbox.Base.Path Agentbox.Base.Errors Agentbox.Config.Limits Agentbox.Files.Snapshot
  Agentbox.Lib.Program
  Agentbox.Podman.Model Agentbox.Podman.State Agentbox.Workspace.Identity Agentbox.Session.Record
  Agentbox.Session.Discovery Agentbox.Session.Status Agentbox.Session.Views
  Agentbox.Session.Claimants Agentbox.Session.Selection Agentbox.Session.Restartable
  Agentbox.Session.Target Agentbox.Session.TargetView Agentbox.Commands.HostCalls
  Agentbox.Commands.WorkspaceFlow Agentbox.Commands.ContainerCleanup
  Agentbox.Commands.ContainerLaunch Agentbox.Commands.DetachedServer Agentbox.Commands.Restart
  Agentbox.Commands.LaunchLabels Agentbox.Commands.Quiet Agentbox.Commands.World Agentbox.Commands.Obliging
  Agentbox.Commands.RoundTrip
open Agentbox.Session.ScopedDiscovery (demoRoot)
open Agentbox.Session.ConnectView (demoWorkspace)

/-- Others change what they like, unless the command holds a lock. -/
def LocksWorld (w w' : WorldState) : Prop := w'.held = w.held ∧ (w.held ≠ [] → w' = w)

/-- The session is the one that the target selects, and it is safe to replace. -/
structure RightSession (w : WorldState) (locked : Utf8Path) (resolved : ResolvedSessionTarget)
    (session : SessionRecord) : Prop where
  lock : w.held = [gitRootDigest64 locked]
  selected : (shown w.host.gitRootProbe w.podman).filter (selects resolved) = [session]
  managed : session.containerKind = .managed
  running : session.status = .running
  gitRoot : session.canonicalGitRoot = some locked
  alone : ∃ c ∈ w.podman.containers, c.id = session.containerId ∧
    ∀ c' ∈ w.podman.containers, countsFor w.host.gitRootProbe locked c' = true → c' = c
  runtime : ∃ runtime, session.runtimeKind = some runtime
  serverArgs : ∃ serverArgs, session.metadata.serverArgs = .ok serverArgs
  limits : ∃ limits, session.metadata.storedResourceLimits = .ok limits
  workspace : ∃ launchDirectory workspace, session.launchDirectory = some launchDirectory ∧
    resolveWorkspaceIdentity w.host (.utf8 launchDirectory) = .ok workspace ∧
    workspace.canonicalGitRoot = locked

/-- What a restart may stop in a world. -/
def MayStop (args : RestartArgs) (w : WorldState) (name : String) : Prop :=
  ∃ locked resolved session, args.target.resolve w.host = .ok resolved ∧
    name = session.containerName ∧ RightSession w locked resolved session

/-- Every stop is one that the restart may make. -/
def StopsRight (args : RestartArgs) (w : WorldState) (o : HostOp) : Prop :=
  ∀ name, o = .stopIgnore name → CanonicalRoots w.podman → MayStop args w name

/-- The world under a lock. -/
structure Locked (s : PodmanState) (host : Host) (digest64 : String) (w : WorldState) : Prop where
  podman : w.podman = s
  host : w.host = host
  held : w.held = [digest64]

variable {args : RestartArgs} {s : PodmanState} {host : Host} {digest64 : String} {w w' : WorldState}
  {locked : Utf8Path} {session : SessionRecord} {o : HostOp}

theorem stopsRight_of_keepsContainers (h : keepsContainers o = true) : StopsRight args w o := by
  rintro name rfl
  cases h

theorem stable_locked (s : PodmanState) (host : Host) (digest64 : String) :
    Stable LocksWorld (Locked s host digest64) := by
  rintro w w1 hw ⟨-, hsame⟩
  rw [hsame (by rw [hw.held]; exact List.cons_ne_nil _ _)]
  exact hw

theorem Locked.of_same (hw : Locked s host digest64 w) (hpodman : w'.podman = w.podman)
    (hhost : w'.host = w.host) (hheld : w'.held = w.held) : Locked s host digest64 w' :=
  ⟨hpodman.trans hw.podman, hhost.trans hw.host, hheld.trans hw.held⟩

/-! ### The selection under the lock -/

section
variable {I : WorldState → WorldState → Prop} {Φ : WorldState → HostOp → Prop}
  {J : WorldState → Prop} (plan : RestartSessionTargetPlan)
  (hΦ : ∀ w o, isQuiet o = true → J w → Φ w o) (hI : Stable I J) (hs : ∀ w, J w → w.podman = s)
include hΦ hI hs

theorem wp_matchingSessions (hw : J w) :
    wp (worldMachine I) Φ (plan.matchingSessions readHost (discoverSessions locked)
        discoverAgentboxContainers locked)
      (fun r w' => J w' ∧ Tells r fun sessions => ∃ w1, J w1 ∧
        matchingIn w.host w1.host.gitRootProbe s locked plan.input = .ok sessions) w := by
  refine wp_quietCall rfl (hΦ w _ rfl hw) hI hw fun read w1 hserves hw1 => ?_
  obtain ⟨rfl, -⟩ := hserves
  change wp _ _ ((Prog.ofExcept (plan.input.resolve w.host)).bind _) _ w1
  refine (wp_bind _ _ _ _).2 ((wp_ofExcept _ _).2 ?_)
  rcases hresolved : plan.input.resolve w.host with e | resolved
  · exact ⟨hw1, fun _ h => nomatch h⟩
  rcases resolved with gitRoot | gitRoot | idPrefix
  · change wp _ _ ((Prog.ofExcept (requireLockedRestartTargetUnchanged locked gitRoot)).bind _) _ w1
    refine (wp_bind _ _ _ _).2 ((wp_ofExcept _ _).2 ?_)
    rcases hsame : requireLockedRestartTargetUnchanged locked gitRoot with e | u
    · exact ⟨hw1, fun _ h => nomatch h⟩
    · refine wp_mono (wp_discover hΦ hI hs (.forGitRoot locked) .agentboxOwned hw1) ?_
      rintro r w2 ⟨hw2, htells⟩
      refine ⟨hw2, fun sessions hr => ?_⟩
      obtain ⟨w3, hw3, hview⟩ := htells sessions hr
      exact ⟨w3, hw3, by simp only [matchingIn, hresolved, bind, Except.bind, hsame, hview]⟩
  · change wp _ _ ((Prog.ofExcept (requireLockedRestartTargetUnchanged locked gitRoot)).bind _) _ w1
    refine (wp_bind _ _ _ _).2 ((wp_ofExcept _ _).2 ?_)
    rcases hsame : requireLockedRestartTargetUnchanged locked gitRoot with e | u
    · exact ⟨hw1, fun _ h => nomatch h⟩
    · change wp _ _ (discoverAgentboxContainers.bind _) _ w1
      refine (wp_bind _ _ _ _).2 (wp_mono (wp_discover hΦ hI hs .all .agentboxOwned hw1) ?_)
      rintro (e | sessions) w2 ⟨hw2, htells⟩
      · exact ⟨hw2, fun _ h => nomatch h⟩
      · obtain ⟨w3, hw3, hview⟩ := htells sessions rfl
        refine ⟨hw2, tells_ok ⟨w3, hw3, ?_⟩⟩
        rw [view_all] at hview
        simp only [matchingIn, hresolved, bind, Except.bind, hsame, Except.ok.inj hview]
        rfl
  · change wp _ _ (discoverAgentboxContainers.bind _) _ w1
    refine (wp_bind _ _ _ _).2 (wp_mono (wp_discover hΦ hI hs .all .agentboxOwned hw1) ?_)
    rintro (e | sessions) w2 ⟨hw2, htells⟩
    · exact ⟨hw2, fun _ h => nomatch h⟩
    obtain ⟨w3, hw3, hview⟩ := htells sessions rfl
    rw [view_all] at hview
    change wp _ _ ((Prog.ofExcept (selectAgentboxStableIdTarget sessions idPrefix)).bind _) _ w2
    refine (wp_bind _ _ _ _).2 ((wp_ofExcept _ _).2 ?_)
    rcases hselection : selectAgentboxStableIdTarget sessions idPrefix with e | selection
    · exact ⟨hw2, fun _ h => nomatch h⟩
    change wp _ _ ((Prog.ofExcept (requireStableIdStillMatchesLockedRoot locked
      selection.sessions)).bind _) _ w2
    refine (wp_bind _ _ _ _).2 ((wp_ofExcept _ _).2 ?_)
    rcases hstill : requireStableIdStillMatchesLockedRoot locked selection.sessions with e | u
    · exact ⟨hw2, fun _ h => nomatch h⟩
    · refine ⟨hw2, tells_ok ⟨w3, hw3, ?_⟩⟩
      simp only [matchingIn, hresolved, bind, Except.bind, Except.ok.inj hview, hselection, hstill]
      rfl

/-- A selection that succeeds is the one of what is shown. -/
theorem wp_selectSessionCandidate (hw : J w) :
    wp (worldMachine I) Φ (plan.selectSessionCandidate readHost (discoverSessions locked)
        discoverAgentboxContainers locked)
      (fun r w' => J w' ∧ Tells r fun session => ∃ w1, J w1 ∧
        candidateIn w.host w1.host.gitRootProbe s locked plan.input = .ok session) w := by
  refine (wp_bind _ _ _ _).2 (wp_mono (wp_matchingSessions plan hΦ hI hs hw) ?_)
  rintro (e | sessions) w1 ⟨hw1, htells⟩
  · exact ⟨hw1, fun _ h => nomatch h⟩
  · refine (wp_ofExcept _ _).2 ⟨hw1, fun session hsession => ?_⟩
    obtain ⟨w2, hw2, hmatching⟩ := htells sessions rfl
    exact ⟨w2, hw2, bind_eq_ok.2 ⟨sessions, hmatching, hsession⟩⟩

end

/-! ### What is done with it -/

/-- The launch workspace is that of the stored directory, with the locked root. -/
theorem restartWorkspaceOf_eq_ok {launchDirectory : Utf8Path} {workspace : WorkspaceIdentity}
    (h : restartWorkspaceOf host locked session launchDirectory = .ok workspace) :
    resolveWorkspaceIdentity host (.utf8 launchDirectory) = .ok workspace ∧
      workspace.canonicalGitRoot = locked := by
  unfold restartWorkspaceOf at h
  split at h
  · cases h
  · next resolved hresolved =>
    split_ifs at h with hsame
    cases h
    refine ⟨hresolved, ?_⟩
    rcases hroot : workspace.canonicalGitRoot with ⟨text⟩
    rcases locked with ⟨text'⟩
    rw [hroot] at hsame
    exact congrArg Utf8Path.mk hsame

theorem stopsRight_of_not_stop (h : ∀ name, o ≠ .stopIgnore name) : StopsRight args w o :=
  fun name hname => absurd hname (h name)

/-- After the stop nothing is stopped. -/
theorem wp_afterStop {α : Type} {p : Command α}
    (hp : Only (S := HostOps) (fun o => ∀ name, o ≠ HostOp.stopIgnore name) p) :
    wp (worldMachine LocksWorld) (StopsRight args) p (fun _ _ => True) w :=
  wp_mono (wp_of_always (A := fun o : HostOps.Op => ∀ name, o ≠ HostOp.stopIgnore name)
    (I := fun _ => True) (fun _ _ ho _ => stopsRight_of_not_stop ho)
    (fun _ _ _ _ _ _ _ => trivial) hp trivial) fun _ _ _ => trivial

theorem ne_stop_of_isQuiet (ho : isQuiet o = true) (name : String) : o ≠ .stopIgnore name := by
  rintro rfl
  cases ho

theorem wp_stopExistingSession (h : StopsRight args w (.stopIgnore session.containerName)) :
    wp (worldMachine LocksWorld) (StopsRight args) (stopExistingSession session) (fun _ _ => True)
      w := by
  refine (wp_bind _ _ _ _).2 ((wp_bind _ _ _ _).2 ((wp_attempt _ _ _).2
    ⟨h, fun r w1 _ => (wp_ofExcept _ _).2 ?_⟩))
  refine wp_mono (wp_afterStop ?_) ?_
  · exact .bind (Only.weaken (quiet_containerExists _).attempt fun _ => ne_stop_of_isQuiet)
      fun _ => only_done _
  · rintro (e | cleanup) w2 -
    · trivial
    · unfold andThen
      simp only
      split
      · trivial
      · trivial

/-- **The session under the lock.** When everything that is checked before the stop holds, the
session is the right one. -/
theorem rightSession_of_checks {target : SessionTargetInput} {restart : RestartableSession}
    {workspace : WorkspaceIdentity} {limits : ResourceLimits} (hroots : CanonicalRoots w.podman)
    (hlock : w.held = [gitRootDigest64 locked])
    (hcandidate : candidateIn w.host w.host.gitRootProbe w.podman locked target = .ok session)
    {display : String} (hprepare : prepareRestartSession display session = .ok restart)
    (hworkspace : restartWorkspaceOf w.host locked restart.session restart.launchDirectory =
      .ok workspace) (hlimits : session.metadata.storedResourceLimits = .ok limits) :
    ∃ resolved, target.resolve w.host = .ok resolved ∧ RightSession w locked resolved session := by
  obtain ⟨hsession, hmanaged, hrunning, hruntime, hdirectory, hargs⟩ :=
    prepareRestartSession_eq_ok hprepare
  obtain ⟨hresolved, hroot⟩ := restartWorkspaceOf_eq_ok hworkspace
  have hnormal : locked.IsNormal := hroot ▸ (isResolved_of_ok hresolved).gitRoot_isNormal
  obtain ⟨resolved, htarget, hselected, hlabel⟩ := candidateIn_spec hnormal hroots hcandidate
  have hshown : session ∈ shown w.host.gitRootProbe w.podman :=
    (List.mem_filter.1 (hselected ▸ List.mem_singleton_self session)).1
  obtain ⟨c, kind, hc, -, hrecord, hother⟩ := of_running hshown hrunning
  have hnotFailed : (record w.host.gitRootProbe c kind).status.isFailed = false := by
    rw [← hrecord, hrunning]
    rfl
  obtain ⟨root, ⟨⟨_, hcomplete⟩, -, -, -⟩, -⟩ := healthy_of_not_isFailed hnotFailed
  have hgitRoot : session.canonicalGitRoot = some root := hrecord ▸ hcomplete.gitRoot
  have hrootNormal : root.IsNormal := by
    have hvalue := hcomplete.gitRoot
    rw [SessionMetadata.canonicalGitRoot, Option.map_eq_some_iff] at hvalue
    obtain ⟨text, htext, rfl⟩ := hvalue
    exact hroots c hc text htext
  have hlocked : root = locked := Utf8Path.eq_of_beq hrootNormal hnormal (hlabel root hgitRoot)
  rw [hlocked] at hgitRoot
  refine ⟨resolved, htarget, hlock, hselected, hmanaged, hrunning, hgitRoot, ?_, ⟨_, hruntime⟩,
    ⟨_, hargs⟩, ⟨_, hlimits⟩, ⟨_, _, hdirectory, hresolved, hroot⟩⟩
  exact ⟨c, hc, hrecord ▸ rfl, hother locked hgitRoot⟩

/-! ### The rule of a restart -/

section
variable {Φ : WorldState → HostOp → Prop} (hΦ : ∀ w o, keepsContainers o = true → Φ w o)
include hΦ

/-- **The rule of a restart.** What is checked and prepared changes no container; what is left is the
stop and the launch. -/
theorem wp_restartSession_rule (hw : Locked s host (gitRootDigest64 locked) w)
    (hlaunch : ∀ (restart : RestartableSession) (workspace : WorkspaceIdentity)
      (stored defaults : ResourceLimits) (preparation : RuntimeLaunchPreparation) (w1 : WorldState),
      prepareRestartSession args.target.display session = .ok restart →
      restartWorkspaceOf host locked restart.session restart.launchDirectory = .ok workspace →
      restart.session.metadata.storedResourceLimits = .ok stored →
      IsPrepared (replacementServerLaunchRequest workspace restart.runtime args.devEnv args.connect
        restart.serverArgs ⟨(args.overrides.cpus.or stored.cpus).or defaults.cpus,
          (args.overrides.memory.or stored.memory).or defaults.memory⟩) preparation →
      Locked s host (gitRootDigest64 locked) w1 →
      wp (worldMachine LocksWorld) Φ ((stopExistingSession restart.session).bind fun _ =>
        executeManagedServerLaunch workspace restart.runtime preparation.runSpec
          preparation.codexAttachToken (restartServerLaunchPolicy workspace restart.runtime)
          ⟨"restarted", args.connect, workspace.canonicalTarget, workspace.canonicalTarget⟩)
        (fun _ _ => True) w1) :
    wp (worldMachine LocksWorld) Φ (restartSession args locked session) (fun _ _ => True) w := by
  have hI := stable_locked s host (gitRootDigest64 locked)
  refine (wp_bind _ _ _ _).2 ((wp_ofExcept _ _).2 ?_)
  rcases hprepare : prepareRestartSession args.target.display session with e | restart
  · trivial
  change wp _ _ ((restartLaunchWorkspace locked restart.session restart.launchDirectory).bind _) _ w
  refine (wp_bind _ _ _ _).2 (wp_quietCall rfl (hΦ _ _ rfl) hI hw fun read w1 hserves hw1 => ?_)
  obtain ⟨rfl, -⟩ := hserves
  refine (wp_ofExcept _ _).2 ?_
  rcases hworkspace : restartWorkspaceOf w.host locked restart.session restart.launchDirectory with
    e | workspace
  · trivial
  refine (wp_bind _ _ _ _).2 (wp_quietCall rfl (hΦ _ _ rfl) hI hw1 fun defaults w2 _ hw2 => ?_)
  change wp _ _ ((Prog.ofExcept restart.session.metadata.storedResourceLimits).bind _) _ w2
  refine (wp_bind _ _ _ _).2 ((wp_ofExcept _ _).2 ?_)
  rcases hlimits : restart.session.metadata.storedResourceLimits with e | stored
  · trivial
  refine (wp_bind _ _ _ _).2 (wp_mono (wp_and_always (wp_keepsContainers
    (keepsContainers_prepareRuntimeLaunch _) (fun _ _ ho _ => hΦ _ _ ho) hI
    (fun _ _ hpodman hhost hheld hw => hw.of_same hpodman hhost hheld) hw2)
    (isPrepared_always _)) ?_)
  rintro (e | preparation) w3 ⟨hw3, hprepared⟩
  · trivial
  exact hlaunch restart workspace stored defaults preparation w3 hprepare (hw.host ▸ hworkspace)
    hlimits (hprepared preparation rfl) hw3

theorem wp_restartLocked_rule {plan : RestartSessionTargetPlan}
    (hplan : plan.input = args.target)
    (hw : Locked s host (gitRootDigest64 plan.lockGitRoot) w)
    (hsession : ∀ session w1, candidateIn host host.gitRootProbe s plan.lockGitRoot args.target =
      .ok session → Locked s host (gitRootDigest64 plan.lockGitRoot) w1 →
        wp (worldMachine LocksWorld) Φ (restartSession args plan.lockGitRoot session)
          (fun _ _ => True) w1) :
    wp (worldMachine LocksWorld) Φ (restartLocked args plan) (fun _ _ => True) w := by
  have hI := stable_locked s host (gitRootDigest64 plan.lockGitRoot)
  refine (wp_bind _ _ _ _).2 (wp_mono (wp_selectSessionCandidate plan
    (fun _ _ ho _ => hΦ _ _ (keepsContainers_of_isQuiet ho)) hI (fun _ hw => hw.podman) hw) ?_)
  rintro (e | session) w1 ⟨hw1, hcandidate⟩
  · trivial
  · obtain ⟨w2, hw2, hcandidate⟩ := hcandidate session rfl
    rw [hw.host, hw2.host, hplan] at hcandidate
    exact hsession session w1 hcandidate hw1

end

theorem wp_restartSession (hw : Locked s host (gitRootDigest64 locked) w)
    (hcandidate : candidateIn host host.gitRootProbe s locked args.target = .ok session) :
    wp (worldMachine LocksWorld) (StopsRight args) (restartSession args locked session)
      (fun _ _ => True) w := by
  refine wp_restartSession_rule (fun _ _ ho => stopsRight_of_keepsContainers ho) hw
    fun restart workspace stored defaults preparation w3 hprepare hworkspace hlimits _ hw3 => ?_
  have hsession := (prepareRestartSession_eq_ok hprepare).1
  have hright : CanonicalRoots w3.podman → MayStop args w3 restart.session.containerName := by
    intro hroots
    rw [hsession] at hlimits
    obtain ⟨resolved, htarget, h⟩ := @rightSession_of_checks w3 locked session args.target restart
      workspace stored hroots hw3.held (by rw [hw3.host, hw3.podman]; exact hcandidate) _ hprepare
      (by rw [hw3.host]; exact hworkspace) hlimits
    exact ⟨locked, resolved, session, htarget, by rw [hsession], h⟩
  refine (wp_bind _ _ _ _).2 (wp_mono (wp_stopExistingSession fun name hname hroots => ?_) ?_)
  · cases hname
    exact hright hroots
  · rintro (e | u) w4 -
    · trivial
    · exact wp_afterStop (only_executeManagedServerLaunch
        (fun _ ho => ne_stop_of_isQuiet (isQuiet_of_isReading ho)) (fun _ => nofun)
        (Only.weaken (quiet_restartPolicy_checkInterrupted _ _) fun _ => ne_stop_of_isQuiet) _ _)

/-- The plan keeps the target. -/
theorem always_resolveRestart (target : SessionTargetInput) :
    Always (S := HostOps) (fun o => isQuiet o = true) (fun r => ∀ plan, r = .ok plan →
        plan.input = target)
      (RestartSessionTargetPlan.resolve readHost discoverAgentboxContainers target) := by
  refine always_bind reading_readHost.quiet (fun _ _ => nofun) fun host _ =>
    always_bind (quiet_ofExcept _) (fun _ _ => nofun) fun resolved _ => ?_
  have hplan : ∀ gitRoot plan, (Except.ok ⟨target, gitRoot⟩ : Except Error _) = .ok plan →
      RestartSessionTargetPlan.input plan = target := by
    rintro gitRoot plan ⟨⟩
    rfl
  split
  · exact hplan _
  · exact hplan _
  · exact always_bind (reading_discover _ _).quiet (fun _ _ => nofun) fun sessions _ =>
      always_bind (quiet_ofExcept _) (fun _ _ => nofun) fun selection _ =>
      always_bind (quiet_ofExcept _) (fun _ _ => nofun) fun gitRoot _ => hplan gitRoot

theorem wp_restartLocked {plan : RestartSessionTargetPlan} (hplan : plan.input = args.target)
    (hw : Locked s host (gitRootDigest64 plan.lockGitRoot) w) :
    wp (worldMachine LocksWorld) (StopsRight args) (restartLocked args plan) (fun _ _ => True) w :=
  wp_restartLocked_rule (fun _ _ ho => stopsRight_of_keepsContainers ho) hplan hw
    fun _ _ hcandidate hw1 => wp_restartSession hw1 hcandidate

theorem wp_restartTarget (hw : w.held = []) :
    wp (worldMachine LocksWorld) (StopsRight args) (restartTarget args) (fun _ _ => True) w := by
  have hstep : ∀ (w : WorldState) (o : HostOps.Op) (r : HostOps.Ret o) (w' : WorldState),
      isQuiet o = true → w.held = [] → (worldMachine LocksWorld).step w o r w' → w'.held = [] := by
    rintro w o r w' ho hw ⟨w1, hserves, hheld, -⟩
    rw [hheld, serves_quiet ho hserves, hw]
  have hΦ : ∀ (w : WorldState) (o : HostOps.Op), isQuiet o = true → w.held = [] →
      StopsRight args w o :=
    fun _ _ ho _ => stopsRight_of_keepsContainers (keepsContainers_of_isQuiet ho)
  refine (wp_bind _ _ _ _).2 (wp_mono (wp_of_always hΦ hstep (always_resolveRestart args.target)
    hw) ?_)
  rintro (e | plan) w1 ⟨hplan, hw1⟩
  · trivial
  refine wp_withGuard (stopsRight_of_not_stop nofun) (fun _ _ _ => trivial) fun w2 hstep => ?_
  obtain ⟨w3, hserves, hheld, hsame⟩ := hstep
  rcases hserves with ⟨⟨_, he⟩, -⟩ | ⟨-, rfl⟩
  · cases he
  obtain rfl := hsame (List.cons_ne_nil _ _)
  refine wp_mono (wp_restartLocked (hplan plan rfl) ⟨rfl, rfl, by rw [hw1]⟩) fun _ _ _ => ?_
  exact ⟨stopsRight_of_not_stop nofun, fun _ _ => trivial⟩

/-- A restart that succeeds has stopped a session. -/
theorem calls_restartTarget (args : RestartArgs) :
    Calls (S := HostOps) (fun o => ∃ name, o = HostOp.stopIgnore name) (restartTarget args) := by
  refine calls_bind _ fun plan => calls_withGuard (calls_bind _ fun session =>
    calls_bind _ fun restart => calls_bind _ fun workspace => calls_bind _ fun limits =>
    calls_bind _ fun preparation => Calls.bind (Calls.bind ?_ _) _) _
  exact calls_call ⟨_, rfl⟩ _

/-- **A restart stops the right session, or it fails and stops nothing.** -/
theorem restartTarget_stopsRight {t : List (Event HostOps WorldState)} {res : Except Error Unit}
    (h : Exec (worldMachine LocksWorld) (restartTarget args) w t w' res) (hw : w.held = []) :
    (∀ e ∈ t, ∀ name, e.op = HostOp.stopIgnore name → CanonicalRoots e.pre.podman →
      MayStop args e.pre name) ∧
    ((∀ e ∈ t, ∀ name, e.op ≠ HostOp.stopIgnore name) → ∃ error, res = .error error) := by
  refine ⟨fun e he name hname => (h.of_wp (wp_restartTarget hw)).2 e he name hname, fun hno => ?_⟩
  rcases res with error | ⟨⟩
  · exact ⟨error, rfl⟩
  · obtain ⟨e, he, name, hname⟩ := calls_restartTarget args _ _ _ _ _ _ h
    exact absurd hname (hno e he name)

def demoRestart : RestartArgs := ⟨.cli (.utf8 demoRoot), .none, false, ⟨none, none⟩⟩

/-- The world in which the demo server runs. -/
def demoRunning : WorldState := { demoWorld with podman := demoServers (.managedServer false) }

def isStopOf (name : String) : HostOp → Bool
  | .stopIgnore stopped => stopped == name
  | _ => false

/-- The demo server is restarted, and stopped for that. -/
theorem restartTarget_stopsRight_demo : demoRunning.held = [] ∧
    (((restartTarget demoRestart).run oblige demoRunning).2.2.any fun e =>
      isStopOf demoWorkspace.containerName e.op) = true ∧
    ∀ e ∈ ((restartTarget demoRestart).run oblige demoRunning).2.2, ∀ name,
      e.op = HostOp.stopIgnore name → CanonicalRoots e.pre.podman →
        MayStop demoRestart e.pre name :=
  ⟨rfl, by decide +kernel, (restartTarget_stopsRight (exec_run (I := LocksWorld) (fun _ => ⟨rfl, fun _ => rfl⟩)
    (restartTarget demoRestart) demoRunning) rfl).1⟩

end Agentbox.Commands.RestartSafety
