import Agentbox.Commands.RestartSafety
import Agentbox.Commands.Start
import Agentbox.Lib.Transition
import Agentbox.Session.RootContainers

/-! # One server for a root

`start`, `run` and `restart` start a server under the lock of its root. What claims the root when
they do is what the target of a restart leaves out: `start` and `run` have found nothing, a restart
has found one session and stopped it. Servers of one root have one name, which is why two of them
never exist together. -/

namespace Agentbox.Commands.SingleServer

open Agentbox.Base.Text Agentbox.Base.Path Agentbox.Base.Errors Agentbox.Config.Limits
  Agentbox.Files.Snapshot Agentbox.Lib.Program Agentbox.Lib.Transition Agentbox.Metadata.Labels
  Agentbox.Metadata.DefaultImage Agentbox.Podman.Model Agentbox.Podman.State Agentbox.Runtime.Kind
  Agentbox.Runtime.Spec Agentbox.Workspace.Identity Agentbox.Session.Record
  Agentbox.Session.Discovery Agentbox.Session.Collected Agentbox.Session.Views Agentbox.Session.Claimants
  Agentbox.Session.Selection Agentbox.Session.Restartable Agentbox.Session.Target
  Agentbox.Session.TargetView Agentbox.Session.RootContainers Agentbox.Commands.HostCalls
  Agentbox.Commands.WorkspaceFlow Agentbox.Commands.ContainerCleanup
  Agentbox.Commands.ContainerLaunch Agentbox.Commands.DetachedServer Agentbox.Commands.Start
  Agentbox.Commands.Restart Agentbox.Commands.LaunchLabels Agentbox.Commands.RoundTrip
  Agentbox.Commands.Quiet Agentbox.Commands.World Agentbox.Commands.Obliging
  Agentbox.Commands.RestartSafety
open Agentbox.Session.ScopedDiscovery (demoRoot)

/-! ### What claims a root -/

/-- An agentbox container that claims the root and is in its discovery scope. -/
def isClaimant (root : Utf8Path) (c : PodmanContainer) : Bool :=
  c.kind.isSome && (rootOf c == some root) && hashAgrees root c

/-- No container of agentbox claims the root. -/
def Alone (root : Utf8Path) (s : PodmanState) : Prop :=
  ∀ c ∈ s.containers, isClaimant root c = false

/-- The resolved target does not select the container, whatever root it claims. -/
def leavesOut : ResolvedSessionTarget → PodmanContainer → Bool
  | .stableId idPrefix, c => !(requiredLabelValue c.labels LABEL_GIT_ROOT_HASH).any fun id =>
      startsWith (toAsciiLowercase id) (toAsciiLowercase idPrefix)
  | _, _ => false

/-- A state in which, of the claimants of the root, exactly those are there that were left out. -/
structure Beside (root : Utf8Path) (locked : PodmanState) (leftOut : PodmanContainer → Bool)
    (s : PodmanState) : Prop where
  claimants : ∀ c ∈ s.containers, isClaimant root c = true → c ∈ locked.containers ∧ leftOut c = true
  kept : ∀ c ∈ locked.containers, isClaimant root c = true → leftOut c = true → c ∈ s.containers

variable {root : Utf8Path} {c : PodmanContainer} {s s' : PodmanState} {probe : GitRootProbe}
  {host : Host} {session : SessionRecord}

theorem isClaimant_iff : isClaimant root c = true ↔
    c.kind.isSome = true ∧ (rootOf c == some root) = true ∧ hashAgrees root c = true := by
  rw [isClaimant, Bool.and_eq_true, Bool.and_eq_true, and_assoc]

theorem Beside.alone_iff {locked : PodmanState} {leftOut : PodmanContainer → Bool}
    (h : Beside root locked leftOut s) : Alone root s ↔
      ∀ c ∈ locked.containers, isClaimant root c = true → leftOut c = false := by
  constructor
  · intro halone c hc hclaims
    by_contra hleft
    have hfree := halone c (h.kept c hc hclaims (Bool.not_eq_false _ ▸ hleft))
    rw [hclaims] at hfree
    cases hfree
  · intro hnone c hc
    by_contra hclaims
    rw [Bool.not_eq_false] at hclaims
    obtain ⟨hlocked, hleft⟩ := h.claimants c hc hclaims
    rw [hnone c hlocked hclaims] at hleft
    cases hleft

theorem beside_of_alone (h : Alone root s) : Beside root s (fun _ => false) s where
  claimants c hc hclaims := by
    rw [h c hc] at hclaims
    cases hclaims
  kept c hc _ _ := hc

/-! ### Start and run -/

/-- A discovery that finds nothing for the root. -/
theorem alone_of_view (h : view probe s (.forGitRoot root) .agentboxOwned = .ok []) : Alone root s := by
  intro c hc
  by_contra hclaims
  rw [Bool.not_eq_false, isClaimant_iff] at hclaims
  obtain ⟨session, hmem, -⟩ := (mem_exactMatches h).2 c hc hclaims.1 hclaims.2.1 hclaims.2.2
  cases hmem

/-! ### Restart -/

theorem stableId_eq (h : IsSessionOf probe c session) :
    session.stableId = requiredLabelValue c.labels LABEL_GIT_ROOT_HASH := by
  obtain ⟨kind, -, rfl | rfl⟩ := h
  · rfl
  · rfl

theorem matchesIdPrefix_eq (h : IsSessionOf probe c session) (idPrefix : String) :
    matchesIdPrefix idPrefix session = !leavesOut (.stableId idPrefix) c := by
  rw [matchesIdPrefix, hasIdPrefix, stableId_eq h, leavesOut, Bool.not_not]
  rcases requiredLabelValue c.labels LABEL_GIT_ROOT_HASH with _ | id
  · rfl
  · rw [Option.any_some, Option.isSome_filter]
    rfl

/-- The candidate is the session of every claimant of the root that the target does not leave out. -/
theorem candidateIn_claimants {input : SessionTargetInput}
    (h : candidateIn host probe s root input = .ok session) :
    ∃ resolved, input.resolve host = .ok resolved ∧
      (∃ c ∈ s.containers, IsSessionOf probe c session ∧ leavesOut resolved c = false) ∧
      ∀ c ∈ s.containers, isClaimant root c = true → leavesOut resolved c = false →
        IsSessionOf probe c session := by
  rw [candidateIn_eq_ok] at h
  unfold matchingIn at h
  obtain ⟨resolved, hresolved, h⟩ := bind_eq_ok.1 h
  refine ⟨resolved, hresolved, ?_⟩
  rcases resolved with gitRoot | gitRoot | idPrefix
  · obtain ⟨_, -, hview⟩ := bind_eq_ok.1 h
    obtain ⟨c0, hc0, hof, -⟩ := isSessionOf_of_mem_view hview (List.mem_singleton_self session)
    refine ⟨⟨c0, hc0, hof, rfl⟩, fun c hc hclaims _ => ?_⟩
    rw [isClaimant_iff] at hclaims
    obtain ⟨session', hmem, hof'⟩ := (mem_exactMatches hview).2 c hc hclaims.1 hclaims.2.1 hclaims.2.2
    rwa [List.mem_singleton.1 (List.mem_filter.1 hmem).1] at hof'
  · obtain ⟨_, hsame, hmatches⟩ := bind_eq_ok.1 h
    have hfilter : exactGitRootMatches (shown probe s) gitRoot = [session] := Except.ok.inj hmatches
    have hmem : session ∈ exactGitRootMatches (shown probe s) gitRoot :=
      hfilter ▸ List.mem_singleton_self session
    obtain ⟨c0, hc0, hof⟩ := isSessionOf_of_mem_shown (List.mem_filter.1 hmem).1
    refine ⟨⟨c0, hc0, hof, rfl⟩, fun c hc hclaims _ => ?_⟩
    rw [isClaimant_iff] at hclaims
    obtain ⟨session', hshown, hof'⟩ := @exists_shown probe _ _ hc hclaims.1
    have hroot : (session'.canonicalGitRoot == some gitRoot) = true := by
      rw [hof'.canonicalGitRoot_eq]
      obtain ⟨path, hpath⟩ : ∃ path, rootOf c = some path := by
        rcases hpath : rootOf c with _ | path
        · rw [hpath] at hclaims
          cases hclaims.2.1
        · exact ⟨path, rfl⟩
      have hlabel := hclaims.2.1
      rw [hpath, some_beq_some, Utf8Path.beq_iff] at hlabel ⊢
      rw [hlabel, Utf8Path.beq_iff.1 (beq_of_unchanged hsame)]
    have hmem' : session' ∈ exactGitRootMatches (shown probe s) gitRoot :=
      List.mem_filter.2 ⟨hshown, hroot⟩
    rw [hfilter, List.mem_singleton] at hmem'
    exact hmem' ▸ hof'
  · obtain ⟨selection, hselection, h⟩ := bind_eq_ok.1 h
    obtain ⟨_, -, hsessions⟩ := bind_eq_ok.1 h
    have hsessions : selection.sessions = [session] := Except.ok.inj hsessions
    obtain ⟨-, hfilter, -⟩ := selectStableIdPrefix_spec hselection
    rw [hsessions] at hfilter
    have hmem : session ∈ (shown probe s).filter (matchesIdPrefix idPrefix) :=
      hfilter ▸ List.mem_singleton_self session
    obtain ⟨hshown, hselected⟩ := List.mem_filter.1 hmem
    obtain ⟨c0, hc0, hof⟩ := isSessionOf_of_mem_shown hshown
    rw [matchesIdPrefix_eq hof, Bool.not_eq_true'] at hselected
    refine ⟨⟨c0, hc0, hof, hselected⟩, fun c hc hclaims hleft => ?_⟩
    obtain ⟨session', hshown', hof'⟩ := @exists_shown probe _ _ hc (isClaimant_iff.1 hclaims).1
    have hmem' : session' ∈ (shown probe s).filter (matchesIdPrefix idPrefix) :=
      List.mem_filter.2 ⟨hshown', by rw [matchesIdPrefix_eq hof', hleft]; rfl⟩
    rw [← hfilter, List.mem_singleton] at hmem'
    exact hmem' ▸ hof'

/-- When the candidate is gone, what is left of the claimants is what the target leaves out. -/
theorem beside_of_stopped {resolved : ResolvedSessionTarget}
    (hsession : ∃ c ∈ s.containers, IsSessionOf probe c session ∧ leavesOut resolved c = false)
    (hall : ∀ c ∈ s.containers, isClaimant root c = true → leavesOut resolved c = false →
      IsSessionOf probe c session)
    (hstops : Stops s session.containerName s') (hgone : s'.find session.containerName = none) :
    Beside root s (leavesOut resolved) s' where
  claimants c hc hclaims := by
    have hfree := PodmanState.find_eq_none.1 hgone c hc
    obtain hold | ⟨c0, -, href, rfl⟩ := hstops.old c hc
    · refine ⟨hold, ?_⟩
      by_contra hleft
      have hof := hall c hold hclaims (Bool.not_eq_true _ ▸ hleft)
      rw [hof.containerName_eq] at hfree
      exact hfree c.containerName_mem_refs
    · exact absurd href hfree
  kept c hc _ hleft := by
    refine hstops.only c hc fun href => ?_
    obtain ⟨c0, hc0, hof, hnot⟩ := hsession
    have hsame : c = c0 := PodmanState.eq_of_mem_refs hc hc0 href
      (hof.containerName_eq ▸ c0.containerName_mem_refs)
    rw [hsame, hnot] at hleft
    cases hleft

/-! ### Launches -/

/-- The specification is that of a server of the root, under the name of its workspace. -/
def IsServerOf (root : Utf8Path) (name : String) (spec : RuntimeRunSpec) : Prop :=
  ∃ request : RuntimeLaunchRequest, IsResolved request.workspace ∧
    request.workspace.canonicalGitRoot = root ∧ request.workspace.containerName = name ∧
    ServerLabels request spec.create.labels

def launches : HostOp → Bool
  | .runDetached _ _ => true
  | _ => false

/-- A server that is started is one of the root, beside what was left out. -/
def LaunchesBeside (root : Utf8Path) (locked : PodmanState) (leftOut : PodmanContainer → Bool)
    (w : WorldState) (o : HostOp) : Prop :=
  ∀ name spec, o = .runDetached name spec →
    IsServerOf root name spec ∧ Beside root locked leftOut w.podman

variable {locked : PodmanState} {leftOut : PodmanContainer → Bool} {w w' : WorldState}
  {digest64 : String} {workspace : WorkspaceIdentity}

theorem launchesBeside_of_not_launches {o : HostOp} (h : launches o = false) :
    LaunchesBeside root locked leftOut w o := by
  rintro name spec rfl
  cases h

theorem launches_of_keepsContainers : ∀ {o : HostOp}, keepsContainers o = true → launches o = false
  | o, h => by cases o <;> first | rfl | cases h

theorem launches_of_isReading {o : HostOp} (h : isReading o = true) : launches o = false :=
  launches_of_keepsContainers (keepsContainers_of_isQuiet (isQuiet_of_isReading h))

/-- The program starts no server. -/
def StartsNone {α : Type} (p : Command α) : Prop :=
  Only (S := HostOps) (fun o => launches o = false) p

theorem startsNone_of_isQuiet {α : Type} {p : Command α} (h : IsQuiet p) : StartsNone p :=
  Only.weaken h fun _ ho => launches_of_keepsContainers (keepsContainers_of_isQuiet ho)

theorem wp_startsNone {α : Type} {p : Command α} (h : StartsNone p) :
    wp (worldMachine LocksWorld) (LaunchesBeside root locked leftOut) p (fun _ _ => True) w :=
  wp_mono (wp_of_always (A := fun o : HostOps.Op => launches o = false) (I := fun _ => True)
    (fun _ _ ho _ => launchesBeside_of_not_launches ho) (fun _ _ _ _ _ _ _ => trivial) h trivial)
    fun _ _ _ => trivial

theorem wp_launchesOnce {α : Type} {p : Command α} {commandName name : String}
    {spec : RuntimeRunSpec} (hp : LaunchesOnce (fun o => launches o = false) commandName name spec p)
    (hserver : IsServerOf root name spec) (hbeside : Beside root locked leftOut s)
    (hw : Locked s host digest64 w) :
    wp (worldMachine LocksWorld) (LaunchesBeside root locked leftOut) p (fun _ _ => True) w := by
  obtain ⟨k, rfl, hk⟩ := hp
  refine (wp_bind _ _ _ _).2 (wp_quietCall rfl (launchesBeside_of_not_launches rfl)
    (stable_locked s host digest64) hw fun r w1 _ hw1 => ?_)
  refine (wp_ofExcept _ _).2 ?_
  rcases r with e | ⟨⟩
  · trivial
  · refine (wp_bind _ _ _ _).2 ((wp_attempt _ _ _).2 ⟨?_, fun r w2 _ => (wp_ofExcept _ _).2 ?_⟩)
    · rintro name' spec' ⟨⟩
      exact ⟨hserver, hw1.podman ▸ hbeside⟩
    · exact wp_startsNone (hk r)

theorem isServerOf_of_isPrepared {request : RuntimeLaunchRequest}
    {preparation : RuntimeLaunchPreparation} (hresolved : IsResolved request.workspace)
    (hmode : request.policy.runMode ≠ .foreground) (h : IsPrepared request preparation) :
    IsServerOf request.workspace.canonicalGitRoot request.workspace.containerName
      preparation.runSpec :=
  ⟨request, hresolved, rfl, rfl, h.serverLabels hmode⟩

/-! ### Under the lock -/

/-- Resources that are required to be absent are. -/
theorem wp_ensureAbsent (hw : Locked s host digest64 w) :
    wp (worldMachine LocksWorld) (LaunchesBeside root locked leftOut)
      (ensureRequiredResourcesAbsent workspace (.requireAbsent .agentboxContainers))
      (fun r w' => Locked s host digest64 w' ∧ Tells r fun _ => Alone workspace.canonicalGitRoot s)
      w := by
  have hI := stable_locked s host digest64
  have hquiet : ∀ (w : WorldState) (o : HostOps.Op), isQuiet o = true → Locked s host digest64 w →
      LaunchesBeside root locked leftOut w o := fun _ _ ho _ =>
    launchesBeside_of_not_launches (launches_of_keepsContainers (keepsContainers_of_isQuiet ho))
  refine (wp_bind _ _ _ _).2 (wp_mono (wp_discover hquiet hI (fun _ hw => hw.podman)
    (.forGitRoot workspace.canonicalGitRoot) .agentboxOwned hw) ?_)
  rintro (e | sessions) w1 ⟨hw1, htells⟩
  · exact ⟨hw1, fun _ h => by cases h⟩
  obtain ⟨w2, -, hview⟩ := htells sessions rfl
  refine (wp_bind _ _ _ _).2 ((wp_ofExcept _ _).2 ?_)
  rcases hselect : selectExistingResource sessions workspace .agentboxContainers with e | found
  · exact ⟨hw1, fun _ h => by cases h⟩
  rcases found with _ | session
  · refine ⟨hw1, tells_ok (@alone_of_view _ _ w2.host.gitRootProbe ?_)⟩
    unfold selectExistingResource at hselect
    split at hselect
    · exact hview
    · cases hselect
    · rw [if_pos rfl] at hselect
      cases hselect
  · refine (wp_bind _ _ _ _).2 (wp_mono (wp_quiet
      (reading_existingSessionError workspace session).quiet hquiet hI hw1) ?_)
    rintro (e | error) w3 hw3
    · exact ⟨hw3, fun _ h => by cases h⟩
    · exact ⟨hw3, fun _ h => by cases h⟩

/-- After the check for existing resources a preparation changes no container. -/
theorem prepareRuntimeLaunch_eq (request : RuntimeLaunchRequest) :
    ∃ rest : PreflightReport → Command RuntimeLaunchPreparation,
      prepareRuntimeLaunch request =
        (checkHostPrerequisites request.runtime request.policy.runMode).bind (fun preflight =>
          (ensureRequiredResourcesAbsent request.workspace request.policy.existingCheck).bind
            fun _ => rest preflight) ∧
      ∀ preflight, KeepsContainers (rest preflight) := by
  simp only [prepareRuntimeLaunch, prepareContainerLaunchForWorkspace, Prog.bind_eq,
    Prog.bind_assoc]
  refine ⟨_, rfl, fun preflight => ?_⟩
  refine .bind (keeps_of_isQuiet (reading_resolveDevEnvironment _ _ _).quiet) fun devEnv =>
    .bind ?_ fun preparation => .bind (keepsContainers_prepareCodexAttachToken _ _ _) fun token =>
    .bind (only_ofExcept _) fun invocation =>
    .bind (keeps_of_isQuiet (reading_detectPassthrough _).quiet) fun _ => only_done _
  have himage : KeepsContainers (ensureDefaultRuntimeImage request.runtime
      request.workspace.canonicalGitRoot) :=
    keeps_of_isQuiet (reading_ensureDefaultRuntimeImage _ _).quiet
  split_ifs
  · exact .bind (keeps_of_isQuiet (reading_ensureHostRuntimeClientAvailable _).quiet) fun _ =>
      .bind himage fun _ => only_done _
  · exact .bind himage fun _ => only_done _

/-- A request that requires absence is prepared only when nothing claims the root. -/
theorem wp_prepareRuntimeLaunch {request : RuntimeLaunchRequest}
    (hcheck : request.policy.existingCheck = .requireAbsent .agentboxContainers)
    (hw : Locked s host digest64 w) :
    wp (worldMachine LocksWorld) (LaunchesBeside root locked leftOut) (prepareRuntimeLaunch request)
      (fun r w' => Locked s host digest64 w' ∧ Tells r fun preparation =>
        Alone request.workspace.canonicalGitRoot s ∧ IsPrepared request preparation) w := by
  have hI := stable_locked s host digest64
  have hkeeps : ∀ (w : WorldState) (o : HostOps.Op), keepsContainers o = true →
      Locked s host digest64 w → LaunchesBeside root locked leftOut w o :=
    fun _ _ ho _ => launchesBeside_of_not_launches (launches_of_keepsContainers ho)
  have halone : wp (worldMachine LocksWorld) (LaunchesBeside root locked leftOut)
      (prepareRuntimeLaunch request) (fun r w' => Locked s host digest64 w' ∧
        Tells r fun _ => Alone request.workspace.canonicalGitRoot s) w := by
    obtain ⟨rest, heq, hrest⟩ := prepareRuntimeLaunch_eq request
    rw [heq, hcheck]
    refine (wp_bind _ _ _ _).2 (wp_quietCall rfl (hkeeps w _ rfl hw) hI hw fun r w1 _ hw1 =>
      (wp_ofExcept _ _).2 ?_)
    rcases r with e | preflight
    · exact ⟨hw1, fun _ h => by cases h⟩
    refine (wp_bind _ _ _ _).2 (wp_mono (wp_ensureAbsent hw1) ?_)
    rintro (e | u) w2 ⟨hw2, htells⟩
    · exact ⟨hw2, fun _ h => by cases h⟩
    · refine wp_mono (wp_keepsContainers (hrest preflight) hkeeps hI
        (fun _ _ hpodman hhost hheld hw => hw.of_same hpodman hhost hheld) hw2) ?_
      exact fun _ _ hw3 => ⟨hw3, fun _ _ => htells u rfl⟩
  refine wp_mono (wp_and_always halone (isPrepared_always request)) ?_
  rintro r w' ⟨⟨hw', htells⟩, hprepared⟩
  exact ⟨hw', fun preparation h => ⟨htells preparation h, hprepared preparation h⟩⟩

/-! ### The commands -/

theorem startsNone_stopAndVerify (name : String) :
    StartsNone (ManagedContainerCleanup.stopAndVerify name) := by
  have hstop : StartsNone (stopIgnore name) := ⟨rfl, only_ofExcept⟩
  exact .bind hstop.attempt fun _ =>
    .bind (startsNone_of_isQuiet (quiet_containerExists name)).attempt fun _ => only_done _

theorem startsNone_startPolicy (existed : Bool) :
    StartsNone (startServerLaunchPolicy workspace existed).checkInterrupted := by
  have hcleanup : StartsNone (InterruptedRunCleanup.run workspace existed) := by
    refine .bind (startsNone_stopAndVerify _) fun cleanup => ?_
    have hvolume : StartsNone (removeVolume workspace.containerName) := ⟨rfl, only_ofExcept⟩
    simp only
    split_ifs
    · exact only_done _
    · refine .bind hvolume.attempt fun r => ?_
      split
      · exact only_done _
      · exact only_done _
    · exact only_done _
  refine .bind (startsNone_of_isQuiet quiet_interrupted) fun b => ?_
  split_ifs
  · exact .bind hcleanup fun _ => only_fail _
  · exact only_done _

theorem wp_startLocked {args : StartArgs} {limits : ResourceLimits}
    (hresolved : IsResolved workspace) (hroot : workspace.canonicalGitRoot = root)
    (hw : Locked s host digest64 w) :
    wp (worldMachine LocksWorld) (LaunchesBeside root s fun _ => false)
      (startLocked args limits workspace) (fun _ _ => True) w := by
  refine (wp_bind _ _ _ _).2 (wp_mono (wp_prepareRuntimeLaunch rfl hw) ?_)
  rintro (e | preparation) w1 ⟨hw1, htells⟩
  · trivial
  obtain ⟨halone, hprepared⟩ := htells preparation rfl
  refine (wp_bind _ _ _ _).2 (wp_quietCall rfl (launchesBeside_of_not_launches rfl)
    (stable_locked s host digest64) hw1 fun r w2 _ hw2 => (wp_ofExcept _ _).2 ?_)
  rcases r with e | existed
  · trivial
  · exact wp_launchesOnce (launchesOnce_executeManagedServerLaunch
      (fun _ ho => launches_of_isReading ho) (startsNone_startPolicy existed) _ _)
      (hroot ▸ isServerOf_of_isPrepared hresolved
        (show RuntimeRunMode.managedSession ≠ .foreground by decide) hprepared)
      (beside_of_alone (hroot ▸ halone)) hw2

theorem startsNone_cleanupTransient : StartsNone (cleanupTransientContainer workspace) := by
  refine .bind (startsNone_stopAndVerify _) fun cleanup => ?_
  split
  · exact only_fail _
  · exact only_done _

theorem startsNone_withCleanupResult (error : Error) : StartsNone (withCleanupResult workspace error) :=
  .bind startsNone_cleanupTransient.attempt fun _ => only_done _

theorem startsNone_transientCheck :
    StartsNone (transientServerLifecycle workspace).checkInterrupted := by
  refine .bind (startsNone_of_isQuiet quiet_interrupted) fun b => ?_
  split_ifs
  · exact .bind (startsNone_withCleanupResult _) fun _ => only_fail _
  · exact only_done _

theorem launchesOnce_executeTransientRunLaunch {runtime : RuntimeKind} {spec : RuntimeRunSpec}
    (token : Option CodexAttachAuth.CodexAttachToken) (clientArgs : List String) :
    LaunchesOnce (fun o => launches o = false) "run" workspace.containerName spec
      (executeTransientRunLaunch workspace runtime spec token clientArgs) := by
  have hlaunch : LaunchesOnce (fun o => launches o = false) "run" workspace.containerName spec
      (launchDetachedServer workspace runtime spec (transientServerLifecycle workspace)) :=
    launchesOnce_launchDetachedServer (fun _ ho => launches_of_isReading ho)
      startsNone_transientCheck (fun _ => only_done _) fun _ =>
        .bind (startsNone_of_isQuiet (reading_errorWithContainerLogs _ _ _).quiet) fun _ =>
          startsNone_withCleanupResult _
  refine hlaunch.bind fun endpoint => .bind (startsNone_of_isQuiet
    (reading_runHostRuntimeClientStatus _ _ _ _ _).quiet).attempt fun status => ?_
  refine .bind startsNone_cleanupTransient.attempt fun cleanup => ?_
  split
  · split_ifs
    · exact only_ofExcept _
    · exact only_fail _
  · exact only_fail _

theorem wp_runLocked {args : RunArgs} {limits : ResourceLimits} (hresolved : IsResolved workspace)
    (hroot : workspace.canonicalGitRoot = root) (hw : Locked s host digest64 w) :
    wp (worldMachine LocksWorld) (LaunchesBeside root s fun _ => false)
      (runLocked args limits workspace) (fun _ _ => True) w := by
  refine (wp_bind _ _ _ _).2 (wp_mono (wp_prepareRuntimeLaunch rfl hw) ?_)
  rintro (e | preparation) w1 ⟨hw1, htells⟩
  · trivial
  · obtain ⟨halone, hprepared⟩ := htells preparation rfl
    exact wp_launchesOnce (launchesOnce_executeTransientRunLaunch _ _)
      (hroot ▸ isServerOf_of_isPrepared hresolved
        (show RuntimeRunMode.transientServer ≠ .foreground by decide) hprepared)
      (beside_of_alone (hroot ▸ halone)) hw1

/-- A stop that is verified has removed the container, and no other one. -/
theorem wp_stopExistingSession_gone (hw : Locked s host digest64 w) :
    wp (worldMachine LocksWorld) (LaunchesBeside root locked leftOut) (stopExistingSession session)
      (fun r w' => Tells r fun _ => ∃ s', Stops s session.containerName s' ∧
        s'.find session.containerName = none ∧ Locked s' host digest64 w') w := by
  refine (wp_bind _ _ _ _).2 ((wp_bind _ _ _ _).2 ((wp_attempt _ _ _).2
    ⟨launchesBeside_of_not_launches rfl, fun stopped w1 hstep => (wp_ofExcept _ _).2 ?_⟩))
  obtain ⟨w2, ⟨s', hstops, rfl⟩, -, hsame⟩ := hstep
  have hheld : (w.setPodman s').held = [digest64] := hw.held
  obtain rfl := hsame (by rw [hheld]; exact List.cons_ne_nil _ _)
  have hw1 : Locked s' host digest64 (w.setPodman s') := ⟨rfl, hw.host, hw.held⟩
  refine (wp_bind _ _ _ _).2 ((wp_attempt _ _ _).2 (wp_quietCall rfl
    (launchesBeside_of_not_launches rfl) (stable_locked s' host digest64) hw1
    fun found w3 hserves hw3 => (wp_ofExcept _ _).2 ?_))
  rcases found with e | found
  · exact fun _ h => by cases h
  · rcases found with _ | _
    · refine tells_ok ⟨s', hw.podman ▸ hstops, ?_, hw3⟩
      have hnone : false = (s'.find session.containerName).isSome := hserves.1 false rfl
      rwa [eq_comm, Option.isSome_eq_false_iff, Option.isNone_iff_eq_none] at hnone
    · exact fun _ h => by cases h

theorem wp_restartLocked_beside {args : RestartArgs} {plan : RestartSessionTargetPlan}
    (hplan : plan.input = args.target) (hw : Locked s host (gitRootDigest64 plan.lockGitRoot) w) :
    wp (worldMachine LocksWorld) (LaunchesBeside plan.lockGitRoot s fun c =>
        (args.target.resolve host).toOption.any fun resolved => leavesOut resolved c)
      (restartLocked args plan) (fun _ _ => True) w := by
  have hΦ : ∀ (w : WorldState) (o : HostOps.Op), keepsContainers o = true →
      LaunchesBeside plan.lockGitRoot s (fun c => (args.target.resolve host).toOption.any
        fun resolved => leavesOut resolved c) w o :=
    fun _ _ ho => launchesBeside_of_not_launches (launches_of_keepsContainers ho)
  refine wp_restartLocked_rule hΦ hplan hw fun session w1 hcandidate hw1 => ?_
  refine wp_restartSession_rule hΦ hw1
    fun restart workspace stored defaults preparation w2 hprepare hworkspace _ hprepared hw2 => ?_
  obtain ⟨hresolve, hroot⟩ := restartWorkspaceOf_eq_ok hworkspace
  obtain ⟨resolved, htarget, hsession, hall⟩ := candidateIn_claimants hcandidate
  have hleft : (fun c => (args.target.resolve host).toOption.any
      fun resolved => leavesOut resolved c) = leavesOut resolved := by
    rw [htarget]
    rfl
  rw [(prepareRestartSession_eq_ok hprepare).1]
  refine (wp_bind _ _ _ _).2 (wp_mono (wp_stopExistingSession_gone hw2) ?_)
  rintro (e | u) w3 htells
  · trivial
  obtain ⟨s', hstops, hgone, hw3⟩ := htells u rfl
  refine wp_launchesOnce (launchesOnce_executeManagedServerLaunch
    (fun _ ho => launches_of_isReading ho)
    (startsNone_of_isQuiet (quiet_restartPolicy_checkInterrupted _ _)) _ _) ?_ ?_ hw3
  · exact hroot ▸ isServerOf_of_isPrepared (isResolved_of_ok hresolve)
      (show RuntimeRunMode.managedSession ≠ .foreground by decide) hprepared
  · rw [hleft]
    exact beside_of_stopped hsession hall hstops hgone

/-! ### Every launch -/

inductive ServerCommand
  | start (args : StartArgs)
  | run (args : RunArgs)
  | restart (args : RestartArgs)

namespace ServerCommand

def program : ServerCommand → Command Unit
  | start args => Start.start args
  | run args => Start.run args
  | restart args => restartTarget args

/-- What the command does not look at when it resolves its target on the host. -/
def leavesOut (host : Host) : ServerCommand → PodmanContainer → Bool
  | restart args, c =>
    (args.target.resolve host).toOption.any fun resolved => SingleServer.leavesOut resolved c
  | _, _ => false

end ServerCommand

variable {t : List (Event HostOps WorldState)} {res : Except Error Unit}

/-- The event starts a server of the root, under the lock of the root that another event has taken. -/
structure LaunchOf (command : ServerCommand) (t : List (Event HostOps WorldState)) (root : Utf8Path)
    (name : String) (spec : RuntimeRunSpec) (lock e : Event HostOps WorldState) : Prop where
  server : IsServerOf root name spec
  lock_mem : lock ∈ t
  lock_op : lock.op = HostOp.lockGuard (gitRootDigest64 root)
  held : lock.post.held = [gitRootDigest64 root]
  beside : Beside root lock.post.podman (command.leavesOut lock.post.host) e.pre.podman

theorem exec_quiet {α : Type} {p : Command α} {r : Except Error α} (hp : IsQuiet p)
    (h : Exec (worldMachine LocksWorld) p w t w' r) :
    w'.held = w.held ∧ ∀ e ∈ t, isQuiet e.op = true := by
  have hops := (h.of_always hp).2
  refine ⟨h.keeps (I := fun w1 => w1.held = w.held) rfl fun e he hheld => ?_, hops⟩
  obtain ⟨w1, hserves, hsame, -⟩ := h.step_of_mem he
  rw [hsame, serves_quiet (hops e he) hserves, hheld]

theorem launchOf_withGuard (command : ServerCommand) {operation : Command Unit}
    (h : Exec (worldMachine LocksWorld) (withGuard (gitRootDigest64 root) operation) w t w' res)
    (hw : w.held = [])
    (hop : ∀ w1, Locked w1.podman w1.host (gitRootDigest64 root) w1 →
      wp (worldMachine LocksWorld) (LaunchesBeside root w1.podman (command.leavesOut w1.host))
        operation (fun _ _ => True) w1)
    {e : Event HostOps WorldState} (he : e ∈ t) {name : String} {spec : RuntimeRunSpec}
    (hlaunch : e.op = HostOp.runDetached name spec) :
    ∃ lock, LaunchOf command t root name spec lock e := by
  obtain ⟨_, rfl, -, -⟩ | ⟨w1, t1, w2, rfl, hlock, hexec, -⟩ := exec_withGuard h
  · obtain rfl := List.mem_singleton.1 he
    cases hlaunch
  obtain ⟨w3, ⟨⟨_, he⟩, -⟩ | ⟨-, rfl⟩, -, hsame⟩ := hlock
  · cases he
  obtain rfl := hsame (List.cons_ne_nil _ _)
  have hmem : e ∈ t1 := by
    rcases List.mem_cons.1 he with rfl | he
    · cases hlaunch
    · refine (List.mem_append.1 he).resolve_right fun hlast => ?_
      obtain rfl := List.mem_singleton.1 hlast
      cases hlaunch
  obtain ⟨hserver, hbeside⟩ := (hexec.of_wp (hop _ ⟨rfl, rfl, by rw [hw]⟩)).2 e hmem name spec hlaunch
  exact ⟨_, hserver, List.mem_cons_self, rfl, by rw [hw], hbeside⟩

theorem always_resolveWorkspace (directory : OsPath) :
    Always (S := HostOps) (fun o => isQuiet o = true) (fun r => ∀ workspace, r = .ok workspace →
      IsResolved workspace) (resolveWorkspace directory) :=
  ⟨rfl, fun _ => (always_ofExcept _ _).2 fun _ h => isResolved_of_ok h⟩

theorem LaunchOf.append {command : ServerCommand} {t1 : List (Event HostOps WorldState)}
    {name : String} {spec : RuntimeRunSpec} {lock e : Event HostOps WorldState}
    (h : LaunchOf command t root name spec lock e) :
    LaunchOf command (t1 ++ t) root name spec lock e :=
  { h with lock_mem := List.mem_append_right _ h.lock_mem }

/-- A quiet part before a command starts nothing. -/
theorem launchOf_bind {α : Type} {command : ServerCommand} {p : Command α} {f : α → Command Unit}
    {R : Except Error α → Prop} (hp : Always (S := HostOps) (fun o => isQuiet o = true) R p)
    (h : Exec (worldMachine LocksWorld) (p.bind f) w t w' res) (hw : w.held = [])
    {e : Event HostOps WorldState} (he : e ∈ t) {name : String} {spec : RuntimeRunSpec}
    (hlaunch : e.op = HostOp.runDetached name spec)
    (hf : ∀ a w1 t1, R (.ok a) → Exec (worldMachine LocksWorld) (f a) w1 t1 w' res →
      w1.held = [] → e ∈ t1 → ∃ root lock, LaunchOf command t1 root name spec lock e) :
    ∃ root lock, LaunchOf command t root name spec lock e := by
  have hno : ∀ {t1 : List (Event HostOps WorldState)} {w1 : WorldState} {r : Except Error α},
      Exec (worldMachine LocksWorld) p w t1 w1 r → e ∉ t1 := by
    intro t1 w1 r h1 hmem
    have hquiet := (exec_quiet (always_mono hp fun _ _ => trivial) h1).2 e hmem
    rw [hlaunch] at hquiet
    cases hquiet
  obtain ⟨_, rfl, h1⟩ | ⟨a, w1, t1, t2, rfl, h1, h2⟩ := exec_bind.1 h
  · exact absurd he (hno h1)
  · have hheld := (exec_quiet (always_mono hp fun _ _ => trivial) h1).1
    obtain ⟨root, lock, hof⟩ := hf a w1 t2 (h1.of_always hp).1 h2 (hheld.trans hw)
      ((List.mem_append.1 he).resolve_left (hno h1))
    exact ⟨root, lock, hof.append⟩

/-- Every server that a command starts is started under the lock of its root. -/
theorem exists_launchOf {command : ServerCommand}
    (h : Exec (worldMachine LocksWorld) command.program w t w' res) (hw : w.held = [])
    {e : Event HostOps WorldState} (he : e ∈ t) {name : String} {spec : RuntimeRunSpec}
    (hlaunch : e.op = HostOp.runDetached name spec) :
    ∃ root lock, LaunchOf command t root name spec lock e := by
  cases command with
  | start args =>
    refine launchOf_bind reading_loadConfig.quiet h hw he hlaunch fun defaults w1 t1 _ h1 hw1 he => ?_
    refine launchOf_bind (always_resolveWorkspace _) h1 hw1 he hlaunch
      fun workspace w2 t2 hresolved h2 hw2 he => ?_
    have hresolved := hresolved workspace rfl
    rw [hresolved.digest64_eq] at h2
    obtain ⟨lock, hof⟩ := launchOf_withGuard (.start args) h2 hw2
      (fun w3 hw3 => wp_startLocked hresolved rfl hw3) he hlaunch
    exact ⟨_, lock, hof⟩
  | run args =>
    refine launchOf_bind reading_loadConfig.quiet h hw he hlaunch fun defaults w1 t1 _ h1 hw1 he => ?_
    refine launchOf_bind (always_resolveWorkspace _) h1 hw1 he hlaunch
      fun workspace w2 t2 hresolved h2 hw2 he => ?_
    have hresolved := hresolved workspace rfl
    rw [hresolved.digest64_eq] at h2
    obtain ⟨lock, hof⟩ := launchOf_withGuard (.run args) h2 hw2
      (fun w3 hw3 => wp_runLocked hresolved rfl hw3) he hlaunch
    exact ⟨_, lock, hof⟩
  | restart args =>
    refine launchOf_bind (always_resolveRestart args.target) h hw he hlaunch
      fun plan w1 t1 hplan h1 hw1 he => ?_
    obtain ⟨lock, hof⟩ := launchOf_withGuard (.restart args) h1 hw1
      (fun w2 hw2 => wp_restartLocked_beside (hplan plan rfl) hw2) he hlaunch
    exact ⟨_, lock, hof⟩

/-! ### Runs -/

/-- Others start no servers of agentbox, and change none but for stopping or removing it. -/
def OthersKeep (w w' : WorldState) : Prop :=
  LocksWorld w w' ∧ ∀ c' ∈ w'.podman.containers, c'.created = true →
    ∃ c ∈ w.podman.containers, c.created = true ∧ c'.id = c.id ∧ c'.names = c.names ∧
      c'.labels = c.labels

/-- Runs of commands, each by a process that holds no lock at first, until one has ended the next
one does not begin. At first there are no servers that agentbox created. -/
def serverRuns : System WorldState ServerCommand where
  init w := ∀ c ∈ w.podman.containers, c.created = false
  step w command w' := ∃ t res,
    Exec (worldMachine OthersKeep) command.program { w with held := [] } t w' res

/-- No root has two servers that agentbox created. -/
def AtMostOne (s : PodmanState) : Prop :=
  ∀ root, ∀ c ∈ s.containers, ∀ c' ∈ s.containers, c.created = true → c'.created = true →
    isClaimant root c = true → isClaimant root c' = true → c = c'

/-- The container has the name of the server of its root. -/
def NamedForRoot (c : PodmanContainer) : Prop :=
  ∃ root, root.IsNormal ∧ rootOf c = some root ∧ c.names = some [(workspaceAt root).containerName]

theorem NamedForRoot.of_same {c' : PodmanContainer} (h : NamedForRoot c) (hnames : c'.names = c.names)
    (hlabels : c'.labels = c.labels) : NamedForRoot c' := by
  obtain ⟨root, hnormal, hroot, hname⟩ := h
  refine ⟨root, hnormal, ?_, hnames.trans hname⟩
  rw [← hroot, rootOf, rootOf, hlabels]

/-- Two containers that are named for one root are one. -/
theorem atMostOne_of_named (h : ∀ c ∈ s.containers, c.created = true → NamedForRoot c) :
    AtMostOne s := by
  intro root c hc c' hc' hcreated hcreated' hclaims hclaims'
  obtain ⟨path, hnormal, hpath, hname⟩ := h c hc hcreated
  obtain ⟨path', hnormal', hpath', hname'⟩ := h c' hc' hcreated'
  have hroot := (isClaimant_iff.1 hclaims).2.1
  have hroot' := (isClaimant_iff.1 hclaims').2.1
  rw [hpath, some_beq_some, Utf8Path.beq_iff] at hroot
  rw [hpath', some_beq_some, Utf8Path.beq_iff] at hroot'
  have hsame : path = path' :=
    Utf8Path.eq_of_beq hnormal hnormal' (Utf8Path.beq_iff.2 (hroot.trans hroot'.symm))
  subst hsame
  have href : (workspaceAt path).containerName ∈ c.refs := by
    simp [PodmanContainer.refs, hname]
  have href' : (workspaceAt path).containerName ∈ c'.refs := by
    simp [PodmanContainer.refs, hname']
  exact PodmanState.eq_of_mem_refs hc hc' href href'

theorem namedForRoot_of_isRun {name : String} {spec : RuntimeRunSpec}
    (hserver : IsServerOf root name spec) (h : IsRun name spec c) : NamedForRoot c := by
  obtain ⟨request, hresolved, rfl, rfl, hlabels⟩ := hserver
  obtain ⟨image, himage⟩ := h.labels
  have hserverLabels : ServerLabels request c.labels := himage ▸ hlabels.union image
  refine ⟨_, hresolved.gitRoot_isNormal, canonicalGitRoot_server hresolved hserverLabels, ?_⟩
  rw [h.names, hresolved.containerName_eq, hresolved.hash12_eq]
  rfl

/-- **The step lemma.** One event of a command keeps the names of the servers. -/
theorem named_of_event {command : ServerCommand}
    (h : Exec (worldMachine OthersKeep) command.program w t w' res) (hw : w.held = [])
    {e : Event HostOps WorldState} (he : e ∈ t)
    (hnamed : ∀ c ∈ e.pre.podman.containers, c.created = true → NamedForRoot c) :
    ∀ c ∈ e.post.podman.containers, c.created = true → NamedForRoot c := by
  obtain ⟨w1, hserves, -, hothers⟩ := h.step_of_mem he
  suffices hserved : ∀ c ∈ w1.podman.containers, c.created = true → NamedForRoot c by
    intro c' hc' hcreated
    obtain ⟨c, hc, hold, -, hnames, hlabels⟩ := hothers c' hc' hcreated
    exact (hserved c hc hold).of_same hnames hlabels
  have hlocks : Exec (worldMachine LocksWorld) command.program w t w' res := by
    refine h.mono fun _ _ _ _ hstep => ?_
    obtain ⟨w2, hserves, hothers⟩ := hstep
    exact ⟨w2, hserves, hothers.1⟩
  rcases e with ⟨pre, o, r, post⟩
  intro c hc hcreated
  cases o with
  | stopIgnore name =>
    obtain ⟨s', hstops, rfl⟩ := hserves
    obtain hold | ⟨c0, hc0, -, rfl⟩ := hstops.old c hc
    · exact hnamed c hold hcreated
    · exact (hnamed c0 hc0 hcreated).of_same rfl rfl
  | runDetached name spec =>
    obtain ⟨-, rfl⟩ | ⟨s', ⟨c0, hrun, hs'⟩, rfl⟩ := hserves
    · exact hnamed c hc hcreated
    · change c ∈ s'.containers at hc
      rw [hs', List.mem_append, List.mem_singleton] at hc
      obtain hold | rfl := hc
      · exact hnamed c hold hcreated
      · obtain ⟨root, lock, hof⟩ := exists_launchOf hlocks hw he rfl
        exact namedForRoot_of_isRun hof.server hrun
  | lockGuard digest64 =>
    obtain ⟨-, rfl⟩ | ⟨-, rfl⟩ := hserves
    · exact hnamed c hc hcreated
    · exact hnamed c hc hcreated
  | unlock digest64 =>
    obtain rfl : w1 = _ := hserves
    exact hnamed c hc hcreated
  | _ =>
    obtain ⟨hpodman, -, -⟩ := serves_keepsContainers rfl hserves
    exact hnamed c (hpodman ▸ hc) hcreated

/-- **The run lemma.** In every run the servers are named for their roots. -/
theorem named_of_reachable (h : Reachable serverRuns w) :
    ∀ c ∈ w.podman.containers, c.created = true → NamedForRoot c := by
  refine h.invariant (I := fun w => ∀ c ∈ w.podman.containers, c.created = true → NamedForRoot c)
    (fun w hinit c hc hcreated => ?_) fun w command w' hnamed hstep => ?_
  · rw [hinit c hc] at hcreated
    cases hcreated
  · obtain ⟨t, res, hexec⟩ := hstep
    exact hexec.keeps (I := fun w => ∀ c ∈ w.podman.containers, c.created = true → NamedForRoot c)
      hnamed fun e he => named_of_event hexec rfl he

/-- **One server for a root.** A server is started where nothing else claims its root, exactly when
the target of a restart leaves out no container that claims the root under the lock; and no run
leaves two servers of one root. -/
theorem singleServer (command : ServerCommand) (w w' : WorldState)
    (t : List (Event HostOps WorldState)) (res : Except Error Unit)
    (h : Exec (worldMachine LocksWorld) command.program w t w' res) (hw : w.held = []) :
    (∀ e ∈ t, ∀ name spec, e.op = HostOp.runDetached name spec → ∃ root, IsServerOf root name spec ∧
      ∃ lock ∈ t, lock.op = HostOp.lockGuard (gitRootDigest64 root) ∧
        lock.post.held = [gitRootDigest64 root] ∧
        (Alone root e.pre.podman ↔ ∀ c ∈ lock.post.podman.containers, isClaimant root c = true →
          command.leavesOut lock.post.host c = false)) ∧
    ∀ w, Reachable serverRuns w → AtMostOne w.podman := by
  refine ⟨fun e he name spec hlaunch => ?_,
    fun w hreach => atMostOne_of_named (named_of_reachable hreach)⟩
  obtain ⟨root, lock, hof⟩ := exists_launchOf h hw he hlaunch
  exact ⟨root, hof.server, lock, hof.lock_mem, hof.lock_op, hof.held, hof.beside.alone_iff⟩

/-- The demo server is restarted by its directory. -/
theorem singleServer_demo : demoRunning.held = [] ∧
    ∀ e ∈ ((restartTarget demoRestart).run oblige demoRunning).2.2, ∀ name spec,
      e.op = HostOp.runDetached name spec → ∃ root, IsServerOf root name spec ∧
        ∃ lock ∈ ((restartTarget demoRestart).run oblige demoRunning).2.2,
          lock.op = HostOp.lockGuard (gitRootDigest64 root) ∧
          lock.post.held = [gitRootDigest64 root] ∧
          (Alone root e.pre.podman ↔ ∀ c ∈ lock.post.podman.containers, isClaimant root c = true →
            (ServerCommand.restart demoRestart).leavesOut lock.post.host c = false) :=
  ⟨rfl, (singleServer (.restart demoRestart) demoRunning _ _ _
    (exec_run (I := LocksWorld) (fun _ => ⟨rfl, fun _ => rfl⟩) (restartTarget demoRestart)
      demoRunning) rfl).1⟩

/-- A container with the label of the demo root, and without the label of its hash. -/
def strayContainer : PodmanContainer where
  id := "stray"
  names := none
  labels := .ofList [(LABEL_MANAGED, LABEL_MANAGED_VALUE), (LABEL_GIT_ROOT, demoRoot.asStr)]
  running := true
  mounts := []
  ports := ∅
  workdir := demoRoot
  command := []
  created := false

/-- The demo server runs, and the stray container. -/
def strayWorld : WorldState :=
  { demoRunning with podman :=
      ⟨strayContainer :: demoRunning.podman.containers, by decide +kernel⟩ }

def restartById : RestartArgs := ⟨.stableId (gitRootHash12 demoRoot), .none, false, ⟨none, none⟩⟩

/-- The event starts a server of the demo root beside a container that claims it. -/
def startsBeside (e : Event HostOps WorldState) : Bool :=
  match e.op with
  | .runDetached _ spec => spec.create.labels[LABEL_GIT_ROOT]? == some demoRoot.asStr &&
      e.pre.podman.containers.any (isClaimant demoRoot)
  | _ => false

/-- A restart by id starts a server beside a container that a restart by directory would not allow. -/
theorem not_singleServer : ¬ ∀ (command : ServerCommand) (w w' : WorldState)
    (t : List (Event HostOps WorldState)) (res : Except Error Unit),
    Exec (worldMachine LocksWorld) command.program w t w' res → w.held = [] →
      ∀ e ∈ t, ∀ name spec root, e.op = HostOp.runDetached name spec →
        spec.create.labels[LABEL_GIT_ROOT]? = some root.asStr → Alone root e.pre.podman := by
  intro h
  have hrun : (((restartTarget restartById).run oblige strayWorld).2.2.any startsBeside) = true := by
    decide +kernel
  obtain ⟨e, he, hbeside⟩ := List.any_eq_true.1 hrun
  unfold startsBeside at hbeside
  split at hbeside
  · next name spec hop =>
    obtain ⟨hlabel, hany⟩ := Bool.and_eq_true_iff.1 hbeside
    obtain ⟨c, hc, hclaims⟩ := List.any_eq_true.1 hany
    have halone := h (.restart restartById) strayWorld _ _ _
      (exec_run (I := LocksWorld) (fun _ => ⟨rfl, fun _ => rfl⟩) (restartTarget restartById)
        strayWorld) rfl e he name spec demoRoot hop (eq_of_beq hlabel)
    rw [halone c hc] at hclaims
    cases hclaims
  · cases hbeside

end Agentbox.Commands.SingleServer
