import Agentbox.Commands.Kindly

/-! # The life of a session

On a host where nothing fails, a root that no container claims can have sessions again and again: a
session is started, connected to and restarted as often as one likes, and stopping it leaves the
containers as they were. -/

namespace Agentbox.Commands.Lifecycle

open Agentbox.Base.Text Agentbox.Base.Path Agentbox.Base.Digest Agentbox.Base.Errors
  Agentbox.Config.Limits Agentbox.Files.Snapshot Agentbox.Lib.Program Agentbox.Lib.Success
  Agentbox.Metadata.Labels Agentbox.Podman.Model Agentbox.Podman.State Agentbox.Runtime.Kind
  Agentbox.Runtime.Spec
  Agentbox.Workspace.Identity Agentbox.Session.Record Agentbox.Session.Discovery
  Agentbox.Session.Status Agentbox.Session.Collected Agentbox.Session.ScopedDiscovery
  Agentbox.Session.Views Agentbox.Session.ConnectView Agentbox.Session.RootContainers
  Agentbox.Session.Selection Agentbox.Session.Connectable Agentbox.Session.Restartable
  Agentbox.Session.Target Agentbox.Commands.HostCalls Agentbox.Commands.WorkspaceFlow
  Agentbox.Commands.CodexAttachAuth Agentbox.Commands.ContainerCleanup
  Agentbox.Commands.ContainerLaunch Agentbox.Commands.RuntimeCommand
  Agentbox.Commands.DetachedServer Agentbox.Commands.Connect Agentbox.Commands.Start
  Agentbox.Commands.Restart Agentbox.Commands.Stop Agentbox.Commands.LaunchLabels
  Agentbox.Commands.World Agentbox.Commands.RoundTrip Agentbox.Commands.LockProtocol
  Agentbox.Commands.TokenAgreement Agentbox.Commands.Kindly

/-! ### The containers of a root -/

/-- No discovery for the root shows the container, or fails for it. -/
def Apart (root : Utf8Path) (c : PodmanContainer) : Prop :=
  ∀ probe kind, c.kind = some kind →
    belongs root (record probe c kind) = false ∧ collides root (record probe c kind) = false

/-- The container is a managed session of the root, which was launched as given. -/
structure SessionOf (root target : Utf8Path) (runtime : RuntimeKind) (serverArgs : List String)
    (probe : GitRootProbe) (c : PodmanContainer) : Prop where
  names : c.names = some [(workspaceAt root).containerName]
  kind : c.kind = some .managed
  hash : hashAgrees root c = true
  status : (record probe c .managed).status = .running
  gitRoot : (record probe c .managed).canonicalGitRoot = some root
  runtimeKind : (record probe c .managed).runtimeKind = some runtime
  launchDirectory : (record probe c .managed).launchDirectory = some target
  endpoint : ∃ endpoint, (record probe c .managed).attachEndpoint = some endpoint
  serverArgs : (record probe c .managed).metadata.serverArgs = .ok serverArgs
  limits : ∃ stored, (record probe c .managed).metadata.storedResourceLimits = .ok stored

variable {root target : Utf8Path} {runtime : RuntimeKind} {serverArgs : List String}
  {probe : GitRootProbe} {c : PodmanContainer} {others : List PodmanContainer} {s s' : PodmanState}
  {containerScope : ContainerDiscoveryScope}

theorem SessionOf.containerName_eq (h : SessionOf root target runtime serverArgs probe c) :
    c.containerName = (workspaceAt root).containerName := by
  rw [PodmanContainer.containerName, h.names]
  rfl

theorem SessionOf.mem_refs (h : SessionOf root target runtime serverArgs probe c) :
    (workspaceAt root).containerName ∈ c.refs := h.containerName_eq ▸ c.containerName_mem_refs

theorem SessionOf.belongs_record (h : SessionOf root target runtime serverArgs probe c) :
    belongs root (record probe c .managed) = true := by
  rw [belongs, h.gitRoot, some_beq_some, Utf8Path.beq_self]
  rfl

theorem SessionOf.collides_record (h : SessionOf root target runtime serverArgs probe c) :
    collides root (record probe c .managed) = false := by
  rw [collides, h.gitRoot, Option.any_some, Utf8Path.beq_self, Bool.not_true, Bool.and_false]

theorem includes_managed (containerScope : ContainerDiscoveryScope) :
    containerScope.includes .managed = true := by
  rcases containerScope with _ | _
  · rfl
  · rfl

/-- A discovery for the root finds its own containers. -/
theorem records_belonging {own : List PodmanContainer}
    (hperm : s.containers.Perm (own ++ others)) (hothers : ∀ c ∈ others, Apart root c)
    (hown : ∀ c ∈ own, c.kind = some .managed ∧ hashAgrees root c = true ∧
      belongs root (record probe c .managed) = true) :
    ((records probe s (.forGitRoot root) containerScope).filter (belongs root)).Perm
      (own.map fun c => record probe c .managed) := by
  have hcandidate : own.filter (isCandidate (.forGitRoot root) containerScope) = own := by
    refine List.filter_eq_self.2 fun c hc => ?_
    obtain ⟨hkind, hhash, -⟩ := hown c hc
    rw [isCandidate, shouldInspect_forGitRoot, hkind, Option.any_some, includes_managed]
    exact hhash
  have howned : own.filterMap owned = own.map fun c => (c, AgentboxContainerKind.managed) := by
    rw [← List.filterMap_eq_map]
    refine List.filterMap_congr fun c hc => ?_
    rw [owned, (hown c hc).1]
    rfl
  have hmine : (own.map fun c => record probe c .managed).filter (belongs root) =
      own.map fun c => record probe c .managed := by
    refine List.filter_eq_self.2 fun r hr => ?_
    obtain ⟨c, hc, rfl⟩ := List.mem_map.1 hr
    exact (hown c hc).2.2
  have hforeign : (((others.filter (isCandidate (.forGitRoot root) containerScope)).filterMap
      owned).map fun p => record probe p.1 p.2).filter (belongs root) = [] := by
    refine List.filter_eq_nil_iff.2 fun r hr => ?_
    obtain ⟨p, hp, rfl⟩ := List.mem_map.1 hr
    obtain ⟨c, hc, hsome⟩ := List.mem_filterMap.1 hp
    obtain ⟨rfl, hkind⟩ := owned_eq_some.1 hsome
    rw [(hothers p.1 (List.mem_filter.1 hc).1 probe p.2 hkind).1]
    exact Bool.false_ne_true
  have hall := (((hperm.filter (isCandidate (.forGitRoot root) containerScope)).filterMap
    owned).map fun p => record probe p.1 p.2).filter (belongs root)
  rw [List.filter_append, List.filterMap_append, List.map_append, List.filter_append, hforeign,
    List.append_nil, hcandidate, howned, List.map_map] at hall
  exact hall.trans (.of_eq hmine)

/-- A discovery for the root fails for none of them. -/
theorem records_not_colliding {own : List PodmanContainer}
    (hperm : s.containers.Perm (own ++ others)) (hothers : ∀ c ∈ others, Apart root c)
    (hown : ∀ c ∈ own, c.kind = some .managed ∧ collides root (record probe c .managed) = false) :
    (records probe s (.forGitRoot root) containerScope).any (collides root) = false := by
  rw [List.any_eq_false]
  intro r hr
  obtain ⟨c, kind, hc, -, hkind, rfl⟩ := mem_records.1 hr
  rw [Bool.not_eq_true]
  obtain hmine | hother := List.mem_append.1 (hperm.mem_iff.1 hc)
  · obtain ⟨hmanaged, hno⟩ := hown c hmine
    obtain rfl := Option.some.inj (hkind.symm.trans hmanaged)
    exact hno
  · exact (hothers c hother probe kind hkind).2

theorem view_idle (hperm : s.containers.Perm others) (hothers : ∀ c ∈ others, Apart root c) :
    view probe s (.forGitRoot root) containerScope = .ok [] := by
  have hnone : ∀ {P : PodmanContainer → Prop}, ∀ c ∈ ([] : List PodmanContainer), P c :=
    fun c hc => absurd hc List.not_mem_nil
  have hrecords := @records_belonging root probe others s containerScope [] hperm hothers hnone
  rw [view, (collected_gitRoot root _).2 (records_not_colliding hperm hothers hnone),
    hrecords.eq_nil]
  rfl

theorem view_serving (hperm : s.containers.Perm (c :: others))
    (hothers : ∀ c ∈ others, Apart root c)
    (hc : SessionOf root target runtime serverArgs probe c) :
    view probe s (.forGitRoot root) containerScope = .ok [record probe c .managed] := by
  have hrecords := @records_belonging root probe others s containerScope [c] hperm hothers
    fun c' hc' => List.mem_singleton.1 hc' ▸ ⟨hc.kind, hc.hash, hc.belongs_record⟩
  have hcollides := @records_not_colliding root probe others s containerScope [c] hperm hothers
    fun c' hc' => List.mem_singleton.1 hc' ▸ ⟨hc.kind, hc.collides_record⟩
  rw [view, (collected_gitRoot root _).2 hcollides, List.perm_singleton.1 hrecords,
    markDuplicateSessions_singleton]

/-- Stopping the name of the root's server leaves the others. -/
theorem perm_of_stops (hperm : s.containers.Perm (c :: others))
    (hname : (workspaceAt root).containerName ∈ c.refs)
    (hothers : ∀ c ∈ others, (workspaceAt root).containerName ∉ c.refs)
    (hstops : Stops s (workspaceAt root).containerName s')
    (hgone : s'.find (workspaceAt root).containerName = none) : s'.containers.Perm others := by
  have hnodup : (c :: others).Nodup := hperm.nodup_iff.1 (PodmanState.nodup_containers s)
  refine (List.perm_ext_iff_of_nodup (PodmanState.nodup_containers s')
    (List.nodup_cons.1 hnodup).2).2 fun c' => ⟨fun hc' => ?_, fun hc' => ?_⟩
  · have hfree := PodmanState.find_eq_none.1 hgone c' hc'
    obtain hold | ⟨c0, -, href, rfl⟩ := hstops.old c' hc'
    · obtain rfl | hother := List.mem_cons.1 (hperm.mem_iff.1 hold)
      · exact absurd hname hfree
      · exact hother
    · exact absurd href hfree
  · exact hstops.only c' (hperm.mem_iff.2 (List.mem_cons_of_mem _ hc')) (hothers c' hc')

/-! ### The states of a root -/

/-- No container is the root's, and the root is a repository. -/
structure Unclaimed (root : Utf8Path) (w0 : WorldState) : Prop where
  apart : ∀ c ∈ w0.podman.containers, Apart root c
  free : ∀ c ∈ w0.podman.containers, (workspaceAt root).containerName ∉ c.refs
  notOrphaned : gitRootIsOrphaned root w0.host.gitRootProbe = false

/-- The containers are those of the first world, and no token file is new. -/
structure Idle (root : Utf8Path) (w0 w : WorldState) : Prop where
  beside : Beside (gitRootDigest64 root) w0 w
  containers : w.podman.containers.Perm w0.podman.containers
  token : w.tokens (gitRootDigest64 root) = none ∨
    w.tokens (gitRootDigest64 root) = w0.tokens (gitRootDigest64 root)

/-- One container more is a session of the root, and a Codex session has its token. -/
structure Serving (root target : Utf8Path) (runtime : RuntimeKind) (serverArgs : List String)
    (w0 w : WorldState) : Prop where
  beside : Beside (gitRootDigest64 root) w0 w
  containers : ∃ c, w.podman.containers.Perm (c :: w0.podman.containers) ∧
    SessionOf root target runtime serverArgs w0.host.gitRootProbe c
  codexToken : runtime = .codex →
    ∃ value, IsToken value ∧ w.tokens (gitRootDigest64 root) = some value
  noToken : runtime ≠ .codex → w.tokens (gitRootDigest64 root) = none ∨
    w.tokens (gitRootDigest64 root) = w0.tokens (gitRootDigest64 root)

/-- The target is resolved to itself, in the repository of the root. -/
def IsHome (host : Host) (root target : Utf8Path) : Prop :=
  ∃ workspace, resolveWorkspaceIdentity host (.utf8 target) = .ok workspace ∧
    workspace.canonicalGitRoot = root ∧ workspace.canonicalTarget = target

/-- The directory is in the repository of the root. -/
structure Inside (host : Host) (root : Utf8Path) (directory : OsPath)
    (workspace : WorkspaceIdentity) : Prop where
  exists_ : host.exists_ directory = true
  resolves : resolveWorkspaceIdentity host directory = .ok workspace
  gitRoot : workspace.canonicalGitRoot = root
  isHome : IsHome host root workspace.canonicalTarget

variable {w0 w w' : WorldState} {d : String} {directory : OsPath} {workspace : WorkspaceIdentity}
  {request : RuntimeLaunchRequest} {prep : RuntimeLaunchPreparation}

theorem Unclaimed.lock (h : Unclaimed root w0) (d : String) : Unclaimed root (locked d w0) :=
  ⟨h.apart, h.free, h.notOrphaned⟩

theorem Idle.lock (h : Idle root w0 w) (d : String) : Idle root (locked d w0) (locked d w) :=
  ⟨h.beside.lock d, h.containers, h.token⟩

theorem Idle.unlock (h : Idle root (locked d w0) w) : Idle root w0 (unlocked d w) :=
  ⟨h.beside.unlock, h.containers, h.token⟩

theorem Serving.lock (h : Serving root target runtime serverArgs w0 w) (d : String) :
    Serving root target runtime serverArgs (locked d w0) (locked d w) :=
  ⟨h.beside.lock d, h.containers, h.codexToken, h.noToken⟩

theorem Serving.unlock (h : Serving root target runtime serverArgs (locked d w0) w) :
    Serving root target runtime serverArgs w0 (unlocked d w) :=
  ⟨h.beside.unlock, h.containers, h.codexToken, h.noToken⟩

/-- Everything a workspace of the root is named after comes from the root. -/
theorem names_of_isResolved (h : IsResolved workspace) (hroot : workspace.canonicalGitRoot = root) :
    workspace.digest64 = gitRootDigest64 root ∧
      workspace.containerName = (workspaceAt root).containerName := by
  refine ⟨hroot ▸ h.digest64_eq, ?_⟩
  rw [h.containerName_eq, h.hash12_eq, hroot]
  rfl

/-! ### A started server -/

theorem publishedPort_mem (h : IsPrepared request prep)
    (hmanaged : request.policy.runMode = .managedSession) :
    publishedPort request.runtime ∈ prep.runSpec.create.publishedPorts := by
  obtain ⟨preparation, invocation, passthrough, -, hspec⟩ := h
  have hports : prep.runSpec.create.publishedPorts =
      (builtSpec request preparation invocation passthrough).create.publishedPorts := by
    rw [hspec, launchRunSpec_eq]
    unfold recordManagedResourceLimits recordRuntimeImageVersion
    split_ifs
    all_goals
      split
      all_goals rfl
  rw [hports]
  change publishedPort request.runtime ∈
    if request.policy.runMode.publishesAttachEndpoint then _ else _
  rw [hmanaged]
  exact List.mem_singleton_self _

/-- The server of a prepared launch is a session of the root. -/
theorem sessionOf_started (hresolved : IsResolved request.workspace)
    (hroot : request.workspace.canonicalGitRoot = root) (hprep : IsPrepared request prep)
    (hmanaged : request.policy.runMode = .managedSession)
    (horphaned : gitRootIsOrphaned root probe = false)
    (hrun : IsRun request.workspace.containerName prep.runSpec c)
    (hserving : IsServing prep.runSpec c) :
    SessionOf root request.workspace.canonicalTarget request.runtime request.serverArgs probe
      c := by
  subst hroot
  have hmode : request.policy.runMode ≠ .foreground := by
    rw [hmanaged]
    exact RuntimeRunMode.noConfusion
  obtain ⟨image, himage⟩ := hrun.labels
  obtain ⟨endpoint, hpublished⟩ := hserving.published _ (publishedPort_mem hprep hmanaged)
  have hreports : Reports image prep.runSpec request.runtime endpoint c :=
    ⟨hserving.running, himage, hserving.mounts, hpublished⟩
  have hlabels := serverLabels_reported hmode hprep hreports
  have hkind : c.kind = some .managed := by
    rw [(kind_reported hmode hprep hreports).1, hmanaged]
    rfl
  have hrecovered := recovered_record hresolved hmode hprep hreports horphaned
  rw [hmanaged] at hrecovered
  obtain ⟨stored, hstored, -⟩ := storedResourceLimits_managed hlabels hmanaged
  exact
    { names := (names_of_isResolved hresolved rfl).2 ▸ hrun.names
      kind := hkind
      hash := by
        have hhash : requiredLabelValue c.labels LABEL_GIT_ROOT_HASH = some _ :=
          gitRootHash_server hresolved hlabels
        rw [hashAgrees, hhash]
        exact beq_self_eq_true _
      status := hrecovered.status
      gitRoot := hrecovered.canonicalGitRoot
      runtimeKind := hrecovered.runtimeKind
      launchDirectory := hrecovered.launchDirectory
      endpoint := ⟨endpoint, hrecovered.attachEndpoint⟩
      serverArgs := hrecovered.serverArgs hmanaged
      limits := ⟨stored, hstored⟩ }

/-! ### start -/

theorem find_of_perm (hperm : w.podman.containers.Perm w0.podman.containers)
    (hroot : Unclaimed root w0) : w.podman.find (workspaceAt root).containerName = none :=
  PodmanState.find_eq_none.2 fun c hc => hroot.free c (hperm.mem_iff.1 hc)

/-- Nothing stands in the way of a launch for the root. -/
theorem succeeds_requireAbsent (hroot : Unclaimed root w0) (hw : Idle root w0 w)
    (hgitRoot : workspace.canonicalGitRoot = root) :
    Succeeds kindMachine (ensureRequiredResourcesAbsent workspace (.requireAbsent
      .agentboxContainers)) (fun _ => Eq w) w := by
  subst hgitRoot
  have hview := @view_idle workspace.canonicalGitRoot w.host.gitRootProbe _ w.podman
    .agentboxOwned hw.containers hroot.apart
  exact succeeds_bind (succeeds_discover hview (succeeds_done rfl))

theorem succeeds_startLocked {args : StartArgs} {limits : ResourceLimits}
    (hroot : Unclaimed root w0) (hw : Idle root w0 w)
    (hin : Inside w0.host root directory workspace) :
    Succeeds kindMachine (startLocked args limits workspace)
      (fun _ => Serving root workspace.canonicalTarget args.runtime args.agentArgs w0) w := by
  have hresolved := isResolved_of_ok hin.resolves
  obtain ⟨hdigest, hname⟩ := names_of_isResolved hresolved hin.gitRoot
  refine succeeds_bind ((succeeds_prepareRuntimeLaunch RuntimeRunMode.noConfusion
    (succeeds_requireAbsent hroot hw hin.gitRoot)).mono ?_)
  rintro prep w1 ⟨hprep, hready⟩
  have hperm : w1.podman.containers.Perm w0.podman.containers := by
    rw [hready.podman]
    exact hw.containers
  refine succeeds_okCall (o := .volumeExists _) rfl (fun _ hr => hr) fun _ existed _ _ _ => ?_
  have hfree : w1.podman.find workspace.containerName = none := by
    rw [hname]
    exact find_of_perm hperm hroot
  refine (succeeds_executeManagedServerLaunch (fun _ => succeeds_checkInterrupted) hready.given
    hfree).mono ?_
  rintro - w2 ⟨hbeside, htokens, c, hcontainers, hrun, hserving⟩
  refine ⟨?_, ⟨c, ?_, ?_⟩, fun hcodex => ?_, fun hother => ?_⟩
  · exact hw.beside.trans (hdigest ▸ hready.beside.trans hbeside)
  · rw [hcontainers]
    exact List.perm_append_comm.trans (hperm.cons c)
  · exact sessionOf_started hresolved hin.gitRoot hprep rfl hroot.notOrphaned hrun hserving
  · rw [htokens, ← hdigest]
    exact hready.stored hcodex rfl
  · rw [htokens, hready.kept (.inl hother)]
    exact hw.token

theorem succeeds_start {args : StartArgs} (hroot : Unclaimed root w0) (hw : Idle root w0 w)
    (hin : Inside w0.host root args.directory workspace) :
    Succeeds kindMachine (Start.start args)
      (fun _ => Serving root workspace.canonicalTarget args.runtime args.agentArgs w0) w := by
  refine succeeds_quietCall (o := .loadConfig) rfl fun defaults _ _ => ?_
  refine succeeds_withLockedWorkspace (hw.beside.host ▸ hin.resolves) ?_
  exact (succeeds_startLocked (hroot.lock _) (hw.lock _) hin).mono fun _ _ h => h.unlock

/-! ### connect -/

section Sessions
variable (hroot : Unclaimed root w0) (hw : Serving root target runtime serverArgs w0 w)
include hroot hw

/-- A discovery for the root finds the session. -/
theorem exists_view (containerScope : ContainerDiscoveryScope) :
    ∃ c, w.podman.containers.Perm (c :: w0.podman.containers) ∧
      SessionOf root target runtime serverArgs w0.host.gitRootProbe c ∧
      view w.host.gitRootProbe w.podman (.forGitRoot root) containerScope =
        .ok [record w0.host.gitRootProbe c .managed] := by
  obtain ⟨c, hperm, hc⟩ := hw.containers
  refine ⟨c, hperm, hc, ?_⟩
  rw [hw.beside.host]
  exact view_serving hperm hroot.apart hc

omit hroot in
theorem succeeds_loadCodexAttachTokenForClient
    (hdigest : workspace.digest64 = gitRootDigest64 root) :
    Succeeds kindMachine (loadCodexAttachTokenForClient runtime workspace)
      (fun token w' => (runtime = .codex → token.isSome = true) ∧ w = w') w := by
  rcases hruntime : runtime with _ | _
  · exact succeeds_done ⟨fun h => (RuntimeKind.noConfusion h), rfl⟩
  · obtain ⟨value, hvalue, hstored⟩ := hw.codexToken hruntime
    have hload : Succeeds kindMachine (loadManaged workspace) (fun _ => Eq w) w := by
      refine succeeds_quietCall (o := .readToken workspace.digest64) rfl fun r _ hkindly => ?_
      obtain rfl : r = .ok value := hkindly value (hdigest ▸ hstored)
      have hne : trim value ≠ "" := by
        rw [trim_of_isToken hvalue]
        obtain ⟨bytes, hlen, rfl⟩ := hvalue
        intro hempty
        have hlength := length_hexLower bytes
        rw [hempty, hlen] at hlength
        exact absurd hlength (by decide)
      change Succeeds kindMachine (if trim value = "" then _ else _) _ w
      rw [if_neg hne]
      exact succeeds_done rfl
    refine succeeds_bind (hload.mono ?_)
    rintro token _ rfl
    exact succeeds_done ⟨fun _ => rfl, rfl⟩

theorem succeeds_connectLocked {agentArgs : List String}
    (hin : Inside w0.host root directory workspace) :
    Succeeds kindMachine (connectLocked agentArgs workspace)
      (fun _ => Serving root target runtime serverArgs w0) w := by
  obtain ⟨hdigest, -⟩ := names_of_isResolved (isResolved_of_ok hin.resolves) hin.gitRoot
  obtain ⟨c, -, hc, hview⟩ := exists_view hroot hw .managedSessions
  obtain ⟨endpoint, hendpoint⟩ := hc.endpoint
  have hselect : selectConnectSession workspace [record w0.host.gitRootProbe c .managed] =
      .ok ⟨record w0.host.gitRootProbe c .managed, runtime, endpoint, target⟩ := by
    change prepareConnectSession workspace _ = _
    rw [prepareConnectSession, validateConnectableStatus, hc.status, hc.runtimeKind, hendpoint,
      hc.launchDirectory]
    rfl
  refine succeeds_bind (succeeds_discover (hin.gitRoot ▸ hview) (succeeds_bind
    (succeeds_ofExcept hselect ?_)))
  refine succeeds_bind ((succeeds_loadCodexAttachTokenForClient hw hdigest).mono ?_)
  rintro token _ ⟨htoken, rfl⟩
  refine succeeds_attempt_bind ((succeeds_runHostRuntimeClient htoken).mono ?_)
  rintro - _ rfl
  exact succeeds_done hw

theorem succeeds_connectDirectory {agentArgs : List String}
    (hin : Inside w0.host root directory workspace) :
    Succeeds kindMachine (connectDirectory directory agentArgs)
      (fun _ => Serving root target runtime serverArgs w0) w :=
  succeeds_withLockedWorkspace (hw.beside.host ▸ hin.resolves)
    ((succeeds_connectLocked (hroot.lock _) (hw.lock _) hin).mono fun _ _ h => h.unlock)

/-! ### restart -/

omit hroot hw in
theorem resolve_of_inside {host : Host} (hin : Inside host root directory workspace) :
    (SessionTargetInput.cli directory).resolve host = .ok (.resolvedGitRoot root) := by
  change resolveCliSessionTarget host directory = _
  rw [resolveCliSessionTarget, if_pos hin.exists_, hin.resolves, ← hin.gitRoot]
  rfl

omit hroot hw in
theorem prepareRestartSession_eq (display : String)
    (hc : SessionOf root target runtime serverArgs probe c) :
    prepareRestartSession display (record probe c .managed) =
      .ok ⟨record probe c .managed, runtime, target, serverArgs⟩ := by
  have hvalid : validateRestartableStatus display (record probe c .managed) = .ok () := by
    unfold validateRestartableStatus
    rw [if_neg (by exact Bool.false_ne_true), if_neg (by exact Bool.false_ne_true), hc.status]
  rw [prepareRestartSession, hvalid, sessionRuntime, hc.runtimeKind, sessionLaunchDirectory,
    hc.launchDirectory, sessionServerArgs, hc.serverArgs]
  rfl

omit hroot hw in
theorem succeeds_stopExistingSession (session : SessionRecord) :
    Succeeds kindMachine (stopExistingSession session)
      (fun _ w' => Stopped session.containerName w w') w := by
  refine succeeds_bind ((succeeds_stopAndVerify session.containerName).mono ?_)
  rintro cleanup w1 ⟨hnone, hstopped⟩
  rw [hnone]
  exact succeeds_done hstopped

omit hroot hw in
theorem succeeds_restartResourceLimits {session : SessionRecord}
    {overrides : ResourceLimitOverrides} {stored : ResourceLimits}
    {Q : ResourceLimits → WorldState → Prop}
    (hstored : session.metadata.storedResourceLimits = .ok stored) (h : ∀ limits, Q limits w) :
    Succeeds kindMachine (restartResourceLimits session overrides) Q w := by
  refine succeeds_quietCall (o := .loadConfig) rfl fun defaults _ _ => ?_
  change Succeeds kindMachine ((Prog.ofExcept session.metadata.storedResourceLimits).bind _) Q w
  rw [hstored]
  exact succeeds_done (h _)

theorem succeeds_restartSession {args : RestartArgs} (hhome : IsHome w0.host root target)
    (hperm : w.podman.containers.Perm (c :: w0.podman.containers))
    (hc : SessionOf root target runtime serverArgs w0.host.gitRootProbe c) :
    Succeeds kindMachine (restartSession args root (record w0.host.gitRootProbe c .managed))
      (fun _ => Serving root target runtime serverArgs w0) w := by
  obtain ⟨workspace, hresolve, hgitRoot, htarget⟩ := hhome
  have hresolved := isResolved_of_ok hresolve
  obtain ⟨hdigest, hname⟩ := names_of_isResolved hresolved hgitRoot
  obtain ⟨stored, hstored⟩ := hc.limits
  have hworkspace : restartWorkspaceOf w.host root (record w0.host.gitRootProbe c .managed) target =
      .ok workspace := by
    rw [hw.beside.host, restartWorkspaceOf, hresolve]
    exact if_pos (congrArg Utf8Path.asStr hgitRoot)
  refine succeeds_bind (succeeds_ofExcept (prepareRestartSession_eq _ hc) ?_)
  refine succeeds_bind (succeeds_readHost (succeeds_ofExcept hworkspace ?_))
  refine succeeds_bind (succeeds_restartResourceLimits hstored fun limits => ?_)
  have habsent : Succeeds kindMachine (ensureRequiredResourcesAbsent workspace .allowExisting)
      (fun _ => Eq w) w := succeeds_done rfl
  refine succeeds_bind ((succeeds_prepareRuntimeLaunch RuntimeRunMode.noConfusion habsent).mono ?_)
  rintro prep w1 ⟨hprep, hready⟩
  refine succeeds_bind ((succeeds_stopExistingSession _).mono ?_)
  rintro - _ ⟨s, hstops, hgone, rfl⟩
  have hnamed : (record w0.host.gitRootProbe c .managed).containerName =
      (workspaceAt root).containerName := hc.containerName_eq
  rw [hnamed] at hstops hgone
  have hothers : s.containers.Perm w0.podman.containers :=
    perm_of_stops (hready.podman ▸ hperm) hc.mem_refs hroot.free hstops hgone
  refine (succeeds_executeManagedServerLaunch (fun _ => succeeds_checkInterrupted) hready.given
    (hname ▸ hgone)).mono ?_
  rintro - w3 ⟨hbeside, htokens, c', hcontainers, hrun, hserving⟩
  refine ⟨?_, ⟨c', ?_, ?_⟩, fun hcodex => ?_, fun hother => ?_⟩
  · exact hw.beside.trans (hdigest ▸ hready.beside.trans
      ⟨hbeside.host, hbeside.held, hbeside.tokens⟩)
  · rw [hcontainers]
    exact List.perm_append_comm.trans (hothers.cons c')
  · exact htarget ▸ sessionOf_started hresolved hgitRoot hprep rfl hroot.notOrphaned hrun hserving
  · rw [htokens, ← hdigest]
    exact hready.stored hcodex rfl
  · rw [htokens]
    change w1.tokens _ = none ∨ w1.tokens _ = _
    rw [hready.kept (.inl hother)]
    exact hw.noToken hother

theorem succeeds_restartTarget {args : RestartArgs} (hhome : IsHome w0.host root target)
    (hin : Inside w0.host root directory workspace) (hargs : args.target = .cli directory) :
    Succeeds kindMachine (restartTarget args)
      (fun _ => Serving root target runtime serverArgs w0) w := by
  have hresolve : args.target.resolve w.host = .ok (.resolvedGitRoot root) := by
    rw [hargs, hw.beside.host]
    exact resolve_of_inside hin
  have hsame : requireLockedRestartTargetUnchanged root root = .ok () := by
    rw [requireLockedRestartTargetUnchanged, if_pos (Utf8Path.beq_self root)]
  have hrestart : Succeeds kindMachine (restartLocked args ⟨args.target, root⟩)
      (fun _ => Serving root target runtime serverArgs (locked (gitRootDigest64 root) w0))
      (locked (gitRootDigest64 root) w) := by
    have hlocked := hw.lock (gitRootDigest64 root)
    obtain ⟨c, hperm, hc, hview⟩ := exists_view (hroot.lock _) hlocked .agentboxOwned
    refine succeeds_bind (succeeds_bind (succeeds_readHost ?_))
    refine succeeds_bind (succeeds_ofExcept hresolve (succeeds_bind (succeeds_ofExcept hsame ?_)))
    refine succeeds_discover hview (succeeds_ofExcept rfl ?_)
    exact succeeds_restartSession (hroot.lock _) hlocked hhome hperm hc
  refine succeeds_bind (succeeds_readHost (succeeds_bind (succeeds_ofExcept hresolve ?_)))
  refine succeeds_done (succeeds_withGuard (hrestart.mono fun _ _ h => h.unlock))

/-! ### stop -/

omit hroot hw in
theorem succeeds_removeToken (hdigest : d = gitRootDigest64 root) :
    Succeeds kindMachine (removeToken d) (fun _ w' => w' = w.setToken (gitRootDigest64 root) none)
      w := by
  subst hdigest
  refine succeeds_call (S := HostOps) (o := .removeToken (gitRootDigest64 root))
    fun r w1 hstep => ?_
  obtain ⟨hserves, ⟨⟨⟩, rfl⟩⟩ := hstep
  obtain rfl | ⟨⟨_, he⟩, -⟩ := hserves
  · exact succeeds_done rfl
  · cases he

/-- The session is stopped, and with a Codex session its token goes. -/
theorem succeeds_cleanupManagedContainer
    (hperm : w.podman.containers.Perm (c :: w0.podman.containers))
    (hc : SessionOf root target runtime serverArgs w0.host.gitRootProbe c) :
    Succeeds kindMachine (cleanupManagedContainer (record w0.host.gitRootProbe c .managed))
      (fun failure w' => failure = none ∧ Idle root w0 w') w := by
  have hnamed : (record w0.host.gitRootProbe c .managed).containerName =
      (workspaceAt root).containerName := hc.containerName_eq
  refine succeeds_bind ((succeeds_stopAndVerify _).mono ?_)
  rintro cleanup _ ⟨hnone, s, hstops, hgone, rfl⟩
  rw [hnamed] at hstops hgone
  have hothers : s.containers.Perm w0.podman.containers :=
    perm_of_stops hperm hc.mem_refs hroot.free hstops hgone
  rw [hnone]
  have hremoved : Succeeds kindMachine (removeCodexAttachTokenForSession
      (record w0.host.gitRootProbe c .managed)) (fun _ => Idle root w0) (w.setPodman s) := by
    have hbeside : Beside (gitRootDigest64 root) w0 (w.setPodman s) :=
      ⟨hw.beside.host, hw.beside.held, hw.beside.tokens⟩
    rw [removeCodexAttachTokenForSession, hc.runtimeKind, hc.gitRoot]
    split_ifs with hcodex
    · refine (succeeds_removeToken rfl).mono ?_
      rintro - _ rfl
      exact ⟨hbeside.trans (beside_setToken _ _), hothers, .inl (Function.update_self ..)⟩
    · exact succeeds_done ⟨hbeside, hothers, hw.noToken fun h => hcodex (congrArg some h)⟩
  exact succeeds_attempt_bind (hremoved.mono fun _ _ hidle => succeeds_done ⟨rfl, hidle⟩)

theorem succeeds_stopTargets {force : Bool} (hin : Inside w0.host root directory workspace) :
    Succeeds kindMachine (stopTargets [.cli directory] force) (fun _ => Idle root w0) w := by
  have hresolve : (SessionTargetInput.cli directory).resolve w.host =
      .ok (.resolvedGitRoot root) := hw.beside.host ▸ resolve_of_inside hin
  have hstop : Succeeds kindMachine (stopExactGitRootLocked ⟨root, .scoped⟩ force (.cli directory))
      (fun failures w' => failures = [] ∧ Idle root (locked (gitRootDigest64 root) w0) w')
      (locked (gitRootDigest64 root) w) := by
    have hlocked := hw.lock (gitRootDigest64 root)
    obtain ⟨c, hperm, hc, hview⟩ := exists_view (hroot.lock _) hlocked .agentboxOwned
    have hmatches : StopExactGitRootTarget.exactMatchesFrom ⟨root, .scoped⟩
        [record w0.host.gitRootProbe c .managed] = [record w0.host.gitRootProbe c .managed] := by
      refine List.filter_eq_self.2 fun session hsession => ?_
      obtain rfl := List.mem_singleton.1 hsession
      have hgitRoot : (record w0.host.gitRootProbe c .managed).canonicalGitRoot = some root :=
        hc.gitRoot
      rw [hgitRoot, some_beq_some, Utf8Path.beq_self]
    have hnonempty : StopExactGitRootTarget.requireNonEmptyMatches ⟨root, .scoped⟩
        (StopExactGitRootTarget.exactMatchesFrom ⟨root, .scoped⟩
          [record w0.host.gitRootProbe c .managed]) = .ok () := by
      rw [hmatches]
      rfl
    have hforce : StopExactGitRootTarget.requireForceForMatches ⟨root, .scoped⟩
        (StopExactGitRootTarget.exactMatchesFrom ⟨root, .scoped⟩
          [record w0.host.gitRootProbe c .managed]).length force (.cli directory) = .ok () := by
      rw [hmatches]
      rfl
    refine succeeds_bind (succeeds_discover hview ?_)
    refine succeeds_bind (succeeds_ofExcept hnonempty ?_)
    refine succeeds_bind (succeeds_ofExcept hforce ?_)
    change Succeeds kindMachine (cleanupSelectedSessions (StopExactGitRootTarget.exactMatchesFrom
      ⟨root, .scoped⟩ [record w0.host.gitRootProbe c .managed])) _ _
    rw [hmatches]
    refine succeeds_bind
      ((succeeds_cleanupManagedContainer (hroot.lock _) hlocked hperm hc).mono ?_)
    rintro _ w1 ⟨rfl, hidle⟩
    exact succeeds_done ⟨rfl, hidle⟩
  refine succeeds_bind (succeeds_readHost ?_)
  refine succeeds_bind (succeeds_ofExcept hresolve (succeeds_done ?_))
  refine succeeds_bind (succeeds_withGuard (hstop.mono ?_))
  rintro _ w1 ⟨rfl, hidle⟩
  exact succeeds_ofExcept rfl hidle.unlock

end Sessions

/-! ### run -/

theorem succeeds_cleanupTransientContainer :
    Succeeds kindMachine (cleanupTransientContainer workspace)
      (fun _ w' => Stopped workspace.containerName w w') w := by
  refine succeeds_bind ((succeeds_stopAndVerify workspace.containerName).mono ?_)
  rintro cleanup w1 ⟨hnone, hstopped⟩
  rw [hnone]
  exact succeeds_done hstopped

theorem succeeds_runLocked {args : RunArgs} {limits : ResourceLimits}
    (hroot : Unclaimed root w0) (hw : Idle root w0 w)
    (hin : Inside w0.host root directory workspace) :
    Succeeds kindMachine (runLocked args limits workspace) (fun _ => Idle root w0) w := by
  obtain ⟨hdigest, hname⟩ := names_of_isResolved (isResolved_of_ok hin.resolves) hin.gitRoot
  refine succeeds_bind ((succeeds_prepareRuntimeLaunch RuntimeRunMode.noConfusion
    (succeeds_requireAbsent hroot hw hin.gitRoot)).mono ?_)
  rintro prep w1 ⟨-, hready⟩
  have hperm : w1.podman.containers.Perm w0.podman.containers := by
    rw [hready.podman]
    exact hw.containers
  have hfree : w1.podman.find workspace.containerName = none := by
    rw [hname]
    exact find_of_perm hperm hroot
  refine succeeds_bind ((succeeds_launchDetachedServer (fun _ => succeeds_checkInterrupted)
    hfree).mono ?_)
  rintro endpoint w2 ⟨hbeside, htokens, c, hcontainers, hrun, -⟩
  refine succeeds_attempt_bind ((succeeds_runHostRuntimeClientStatus hready.given).mono ?_)
  rintro status _ ⟨hsuccess, rfl⟩
  refine succeeds_attempt_bind (succeeds_cleanupTransientContainer.mono ?_)
  rintro - _ ⟨s, hstops, hgone, rfl⟩
  have hserver : w2.podman.containers.Perm (c :: w0.podman.containers) := by
    rw [hcontainers]
    exact List.perm_append_comm.trans (hperm.cons c)
  have hmem : (workspaceAt root).containerName ∈ c.refs := by
    rw [PodmanContainer.refs, hrun.names, hname]
    exact List.mem_cons_of_mem _ List.mem_cons_self
  have hidle : Idle root w0 (w2.setPodman s) := by
    rw [hname] at hstops hgone
    refine ⟨?_, perm_of_stops hserver hmem hroot.free hstops hgone, ?_⟩
    · exact hw.beside.trans (hdigest ▸ hready.beside.trans
        ⟨hbeside.host, hbeside.held, hbeside.tokens⟩)
    · change w2.tokens _ = none ∨ w2.tokens _ = _
      rw [htokens, hready.kept (.inr RuntimeRunMode.noConfusion)]
      exact hw.token
  change Succeeds kindMachine (if status.success = true then _ else _) _ _
  rw [if_pos hsuccess]
  exact succeeds_done hidle

theorem succeeds_run {args : RunArgs} (hroot : Unclaimed root w0) (hw : Idle root w0 w)
    (hin : Inside w0.host root args.directory workspace) :
    Succeeds kindMachine (Start.run args) (fun _ => Idle root w0) w := by
  refine succeeds_quietCall (o := .loadConfig) rfl fun defaults _ _ => ?_
  refine succeeds_withLockedWorkspace (hw.beside.host ▸ hin.resolves) ?_
  exact (succeeds_runLocked (hroot.lock _) (hw.lock _) hin).mono fun _ _ h => h.unlock

/-! ### Commands in order -/

/-- A command for a session that serves. -/
inductive IsUse (host : Host) (root : Utf8Path) : SessionCommand → Prop
  | connect {directory : OsPath} {workspace : WorkspaceIdentity} (agentArgs : List String)
      (hin : Inside host root directory workspace) : IsUse host root (.connect directory agentArgs)
  | restart {directory : OsPath} {workspace : WorkspaceIdentity} {args : RestartArgs}
      (hin : Inside host root directory workspace) (hargs : args.target = .cli directory) :
      IsUse host root (.restart args)

/-- A transient run, or a session from its start to its end. -/
inductive IsVisit (host : Host) (root : Utf8Path) : List SessionCommand → Prop
  | run {args : RunArgs} {workspace : WorkspaceIdentity}
      (hin : Inside host root args.directory workspace) : IsVisit host root [.run args]
  | session {args : StartArgs} {workspace stopWorkspace : WorkspaceIdentity}
      {uses : List SessionCommand} {directory : OsPath} (force : Bool)
      (hstart : Inside host root args.directory workspace)
      (huses : ∀ use ∈ uses, IsUse host root use)
      (hstop : Inside host root directory stopWorkspace) :
      IsVisit host root (.start args :: (uses ++ [.stop [.cli directory] force]))

def inOrder (commands : List SessionCommand) : Command Unit :=
  Prog.forEach SessionCommand.program commands

/-- The commands succeed whatever the host answers, and it answers them. -/
def Does (commands : List SessionCommand) (w : WorldState) (Q : WorldState → Prop) : Prop :=
  (∃ t w', Exec kindMachine (inOrder commands) w t w' (.ok ())) ∧
    Succeeds kindMachine (inOrder commands) (fun _ => Q) w

theorem Idle.refl (root : Utf8Path) (w : WorldState) : Idle root w w :=
  ⟨.refl _ w, .refl _, .inr rfl⟩

theorem does_of_succeeds {commands : List SessionCommand} {Q : WorldState → Prop}
    (h : Succeeds kindMachine (inOrder commands) (fun _ => Q) w) : Does commands w Q := by
  obtain ⟨t, w', ⟨⟩, hexec, -⟩ := h.exists_exec answers_kindMachine
  exact ⟨⟨t, w', hexec⟩, h⟩

/-- **The step lemma of a session.** -/
theorem succeeds_use {command : SessionCommand} (hroot : Unclaimed root w0)
    (hhome : IsHome w0.host root target) (huse : IsUse w0.host root command)
    (hw : Serving root target runtime serverArgs w0 w) :
    Succeeds kindMachine command.program (fun _ => Serving root target runtime serverArgs w0)
      w := by
  cases huse with
  | connect agentArgs hin => exact succeeds_connectDirectory hroot hw hin
  | restart hin hargs => exact succeeds_restartTarget hroot hw hhome hin hargs

theorem succeeds_session {args : StartArgs} {uses : List SessionCommand} (hroot : Unclaimed root w0)
    (hw : Idle root w0 w) (hin : Inside w0.host root args.directory workspace)
    (huses : ∀ use ∈ uses, IsUse w0.host root use) :
    Succeeds kindMachine (inOrder (.start args :: uses))
      (fun _ => Serving root workspace.canonicalTarget args.runtime args.agentArgs w0) w := by
  refine succeeds_bind ((succeeds_start hroot hw hin).mono fun _ w1 hserving => ?_)
  exact succeeds_forEach hserving fun use huse w2 => succeeds_use hroot hin.isHome (huses use huse)

/-- **The step lemma of a root without a session.** -/
theorem succeeds_visit {visit : List SessionCommand} (hroot : Unclaimed root w0)
    (hvisit : IsVisit w0.host root visit) (hw : Idle root w0 w) :
    Succeeds kindMachine (inOrder visit) (fun _ => Idle root w0) w := by
  cases hvisit with
  | run hin =>
    exact succeeds_bind ((succeeds_run hroot hw hin).mono fun _ _ hidle => succeeds_done hidle)
  | @session args _ _ uses directory force hstart huses hstop =>
    rw [← List.cons_append]
    refine succeeds_forEach_append ((succeeds_session hroot hw hstart huses).mono ?_)
    intro _ w1 hserving
    exact succeeds_bind ((succeeds_stopTargets hroot hserving hstop).mono fun _ _ hidle =>
      succeeds_done hidle)

theorem succeeds_visits (hroot : Unclaimed root w0) : ∀ {visits : List (List SessionCommand)}
    {w : WorldState}, (∀ visit ∈ visits, IsVisit w0.host root visit) → Idle root w0 w →
      Succeeds kindMachine (inOrder visits.flatten) (fun _ => Idle root w0) w
  | [], _, _, hw => succeeds_done hw
  | visit :: visits, _, hvisits, hw => by
    obtain ⟨hfirst, hrest⟩ := List.forall_mem_cons.1 hvisits
    exact succeeds_forEach_append ((succeeds_visit hroot hfirst hw).mono fun _ _ =>
      succeeds_visits hroot hrest)

/-- **The life cycle.** On a host where nothing fails, runs and sessions of a root that nobody
claims succeed one after the other; between a start and a stop there is one session, as it was
launched, and in the end the containers are those of the beginning. -/
theorem lifecycle (hroot : Unclaimed root w0) {visits : List (List SessionCommand)}
    (hvisits : ∀ visit ∈ visits, IsVisit w0.host root visit) :
    Does visits.flatten w0 (Idle root w0) ∧
    ∀ (args : StartArgs) (workspace : WorkspaceIdentity) (uses : List SessionCommand),
      Inside w0.host root args.directory workspace → (∀ use ∈ uses, IsUse w0.host root use) →
        Does (visits.flatten ++ .start args :: uses) w0
          (Serving root workspace.canonicalTarget args.runtime args.agentArgs w0) := by
  have hidle := succeeds_visits hroot hvisits (Idle.refl root w0)
  refine ⟨does_of_succeeds hidle, fun args workspace uses hin huses => does_of_succeeds ?_⟩
  exact succeeds_forEach_append (hidle.mono fun _ _ hw => succeeds_session hroot hw hin huses)

/-- A run, and a Codex session that is connected to and restarted. -/
def demoVisits : List (List SessionCommand) :=
  [[.run ⟨.opencode, .none, ⟨none, none⟩, .utf8 demoRoot, []⟩],
    .start ⟨.codex, .none, true, ⟨none, none⟩, .utf8 demoRoot, []⟩ ::
      ([.connect (.utf8 demoRoot) [],
          .restart ⟨.cli (.utf8 demoRoot), .none, false, ⟨none, none⟩⟩] ++
        [.stop [.cli (.utf8 demoRoot)] false])]

theorem inside_demo : Inside demoHost demoRoot (.utf8 demoRoot) demoWorkspace :=
  ⟨rfl, resolve_demo, rfl, demoWorkspace, resolve_demo, rfl, rfl⟩

theorem unclaimed_demo : Unclaimed demoRoot demoWorld :=
  ⟨fun _ hc => absurd hc List.not_mem_nil, fun _ hc => absurd hc List.not_mem_nil,
    demo_not_orphaned⟩

theorem lifecycle_demo : Does demoVisits.flatten demoWorld (Idle demoRoot demoWorld) := by
  refine (lifecycle unclaimed_demo fun visit hvisit => ?_).1
  obtain rfl | rfl := List.mem_pair.1 hvisit
  · exact .run inside_demo
  · refine .session false inside_demo (fun use huse => ?_) inside_demo
    obtain rfl | rfl := List.mem_pair.1 huse
    · exact .connect [] inside_demo
    · exact .restart inside_demo rfl

end Agentbox.Commands.Lifecycle
