import Agentbox.Commands.LaunchLabels
import Agentbox.Commands.Obliging
import Agentbox.Session.ConnectView

/-! # Container metadata, there and back

A server that is started with the specification of a launch is discovered as what was launched: its
labels carry the root, the runtime, the launch directory, the arguments and, for a managed session,
the limits. -/

namespace Agentbox.Commands.RoundTrip

open Agentbox.Base.Text Agentbox.Base.Path Agentbox.Base.Errors Agentbox.Config.Limits
  Agentbox.Files.Snapshot Agentbox.Lib.Entries Agentbox.Lib.Program Agentbox.Metadata.Labels Agentbox.Metadata.Session Agentbox.Metadata.DefaultImage
  Agentbox.Podman.Model Agentbox.Podman.State Agentbox.Runtime.Kind Agentbox.Runtime.Spec
  Agentbox.Workspace.Identity Agentbox.Session.Record Agentbox.Session.Inspected
  Agentbox.Session.Discovery Agentbox.Session.Status Agentbox.Session.Collected
  Agentbox.Session.Views Agentbox.Session.Claimants Agentbox.Session.ConnectView
  Agentbox.Commands.HostCalls
  Agentbox.Commands.ContainerLaunch Agentbox.Commands.LaunchLabels Agentbox.Commands.World
  Agentbox.Commands.Obliging

open Agentbox.Session.ScopedDiscovery (demoRoot shouldInspect_forGitRoot)

open Agentbox.Lib.Json (encodeStrings mem_encodeStrings decodeStrings_encodeStrings)

/-! ### Reading labels -/

variable {request : RuntimeLaunchRequest} {m : LabelMap}

theorem label_of_holds {l : List (String × String)} (h : Holds m l) {name value : String}
    (hmem : (name, value) ∈ l) (hb : isBlank value = false) :
    (SessionMetadata.mk m).label name = some value :=
  requiredLabelValue_of_get (h _ hmem) hb

theorem label_of_lacks {names : List String} (h : Lacks m names) {name : String}
    (hmem : name ∈ names) : (SessionMetadata.mk m).label name = none := by
  rw [SessionMetadata.label, requiredLabelValue, h name hmem]
  rfl

theorem requireMatchingAttachLabel_of_label {name expected : String}
    (mismatch : String → AttachLabelError) (h : (SessionMetadata.mk m).label name = some expected) :
    requireMatchingAttachLabel ⟨m⟩ name expected mismatch = .ok () := by
  rw [requireMatchingAttachLabel, requireAttachLabel, h]
  exact if_pos rfl

/-- Every label of a server has a value. -/
theorem isBlank_serverEntries (hw : IsResolved request.workspace) :
    ∀ e ∈ serverEntries (labelInput request), isBlank e.2 = false := by
  have hruntime : ∀ runtime : RuntimeKind, isBlank runtime.asStr = false ∧
      isBlank (defaultImage runtime) = false ∧ isBlank runtime.attachSpec.scheme = false ∧
      isBlank s!"{runtime.attachSpec.containerPort}" = false ∧
      isBlank runtime.attachSpec.containerListenIp = false := by
    intro runtime
    cases runtime <;> decide
  obtain ⟨hname, himage, hscheme, hport, hip⟩ := hruntime request.runtime
  have hhash : isBlank request.workspace.hash12 = false :=
    hw.hash12_eq ▸ isBlank_gitRootHash12 _
  have hcontainer : isBlank request.workspace.containerName = false :=
    hw.containerName_eq ▸ isBlank_containerName _ _
  simp only [serverEntries, List.forall_mem_cons]
  exact ⟨isBlank_of_isAbsolute hw.gitRoot_isAbsolute, hhash, hname, himage,
    isBlank_of_isAbsolute hw.target_isAbsolute, hcontainer, hscheme, hport, hip,
    fun _ h => absurd h List.not_mem_nil⟩

section
variable (hw : IsResolved request.workspace) (h : ServerLabels request m)
include hw h

theorem label_server {name value : String}
    (hmem : (name, value) ∈ serverEntries (labelInput request)) :
    (SessionMetadata.mk m).label name = some value := by
  have hblank := isBlank_serverEntries hw (name, value) hmem
  exact label_of_holds h.server hmem hblank

theorem canonicalGitRoot_server :
    (SessionMetadata.mk m).canonicalGitRoot = some request.workspace.canonicalGitRoot := by
  have hlabel : (SessionMetadata.mk m).label LABEL_GIT_ROOT =
      some request.workspace.canonicalGitRoot.asStr := label_server hw h List.mem_cons_self
  rw [SessionMetadata.canonicalGitRoot, hlabel]
  rfl

theorem gitRootHash_server :
    (SessionMetadata.mk m).gitRootHash = some (gitRootHash12 request.workspace.canonicalGitRoot) := by
  rw [← hw.hash12_eq]
  exact label_server hw h (List.mem_cons_of_mem _ List.mem_cons_self)

theorem launchDirectory_server :
    (SessionMetadata.mk m).launchDirectory = some request.workspace.canonicalTarget := by
  have hlabel : (SessionMetadata.mk m).label LABEL_LAUNCH_DIRECTORY =
      some request.workspace.canonicalTarget.asStr :=
    label_server hw h (by simp [serverEntries, labelInput, ManagedSessionLabelInput.fromWorkspace])
  rw [SessionMetadata.launchDirectory, hlabel]
  rfl

theorem runtimeKind_server : (SessionMetadata.mk m).runtimeKind = some request.runtime := by
  have hlabel : (SessionMetadata.mk m).label LABEL_RUNTIME = some request.runtime.asStr :=
    label_server hw h (by simp [serverEntries, labelInput, ManagedSessionLabelInput.fromWorkspace])
  rw [SessionMetadata.runtimeKind, SessionMetadata.runtime, hlabel, Option.bind_some,
    RuntimeKind.parse_asStr]
  rfl

theorem attachLabels_server : attachLabels ⟨m⟩ = .ok request.runtime := by
  have hruntime : (SessionMetadata.mk m).label LABEL_RUNTIME = some request.runtime.asStr :=
    label_server hw h (by simp [serverEntries, labelInput, ManagedSessionLabelInput.fromWorkspace])
  have hscheme : (SessionMetadata.mk m).label LABEL_ATTACH_SCHEME =
      some request.runtime.attachSpec.scheme :=
    label_server hw h (by simp [serverEntries, labelInput, ManagedSessionLabelInput.fromWorkspace])
  have hport : (SessionMetadata.mk m).label LABEL_CONTAINER_PORT =
      some s!"{request.runtime.attachSpec.containerPort}" :=
    label_server hw h (by simp [serverEntries, labelInput, ManagedSessionLabelInput.fromWorkspace])
  have hip : (SessionMetadata.mk m).label LABEL_CONTAINER_LISTEN_IP =
      some request.runtime.attachSpec.containerListenIp :=
    label_server hw h (by simp [serverEntries, labelInput, ManagedSessionLabelInput.fromWorkspace])
  have hparse : ∀ runtime : RuntimeKind, readU16 s!"{runtime.attachSpec.containerPort}" =
      .ok runtime.attachSpec.containerPort := by
    intro runtime
    refine readU16_of_parseU16 ?_
    cases runtime <;> decide
  have hkind : requireRuntimeKind ⟨m⟩ = .ok request.runtime := by
    simp only [requireRuntimeKind, requireAttachLabel, hruntime, bind, Except.bind,
      RuntimeKind.parse_asStr]
    rfl
  have hmatch : requireMatchingContainerPort ⟨m⟩ request.runtime
      request.runtime.attachSpec.containerPort = .ok () := by
    simp only [requireMatchingContainerPort, requireAttachLabel, hport, bind, Except.bind, hparse,
      if_true]
    rfl
  rw [attachLabels, hkind]
  change (requireMatchingAttachLabel ⟨m⟩ LABEL_ATTACH_SCHEME request.runtime.attachSpec.scheme _ >>=
    _) = _
  rw [requireMatchingAttachLabel_of_label _ hscheme]
  change (requireMatchingContainerPort ⟨m⟩ request.runtime
    request.runtime.attachSpec.containerPort >>= _) = _
  rw [hmatch]
  change (requireMatchingAttachLabel ⟨m⟩ LABEL_CONTAINER_LISTEN_IP
    request.runtime.attachSpec.containerListenIp _ >>= _) = _
  rw [requireMatchingAttachLabel_of_label _ hip]
  rfl

end

/-! ### Markers -/

section
variable (h : ServerLabels request m)
include h

theorem kind_managed (hm : request.policy.runMode = .managedSession) :
    agentboxContainerKindFromLabels m = some .managed ∧
      requireAgentboxContainerMarker ⟨m⟩ = .ok () := by
  have hmanaged : requiredLabelValue m LABEL_MANAGED = some LABEL_MANAGED_VALUE :=
    label_of_holds (h.markers hm) List.mem_cons_self (by decide)
  have hschema : requiredLabelValue m LABEL_SCHEMA = some LABEL_SCHEMA_VALUE :=
    label_of_holds (h.markers hm) (by simp [markerEntries]) (by decide)
  have hkind : agentboxContainerKindFromLabels m = some .managed := if_pos hmanaged
  refine ⟨hkind, ?_⟩
  simp only [requireAgentboxContainerMarker, SessionMetadata.containerKind, hkind,
    requireSessionLabelValue, SessionMetadata.label, hmanaged, hschema, if_pos]
  rfl

theorem kind_transient (hm : request.policy.runMode = .transientServer) :
    agentboxContainerKindFromLabels m = some .run ∧
      requireAgentboxContainerMarker ⟨m⟩ = .ok () := by
  have hmanaged : requiredLabelValue m LABEL_MANAGED = none :=
    label_of_lacks (h.noLimits hm) List.mem_cons_self
  have hrun : requiredLabelValue m LABEL_CONTAINER_KIND =
      some LABEL_CONTAINER_KIND_TRANSIENT_RUN_VALUE :=
    label_of_holds (h.transient hm) List.mem_cons_self (by decide)
  have hkind : agentboxContainerKindFromLabels m = some .run := by
    rw [agentboxContainerKindFromLabels, hmanaged, if_neg (by simp), if_pos hrun]
  refine ⟨hkind, ?_⟩
  simp only [requireAgentboxContainerMarker, SessionMetadata.containerKind, hkind,
    requireSessionLabelValue, SessionMetadata.label, hrun, if_pos]

theorem serverArgs_managed (hm : request.policy.runMode = .managedSession) :
    (SessionMetadata.mk m).serverArgs = .ok request.serverArgs := by
  by_cases hargs : request.serverArgs = []
  · rw [SessionMetadata.serverArgs, label_of_lacks (h.noArgs hargs) List.mem_cons_self, hargs]
  · have hentry : Holds m [(LABEL_SERVER_ARGS, encodeStrings request.serverArgs)] := by
      have hall := h.args hm
      rw [argEntries, if_neg hargs] at hall
      exact hall
    have hblank : isBlank (encodeStrings request.serverArgs) = false :=
      isBlank_of_mem (mem_encodeStrings request.serverArgs) (by decide)
    rw [SessionMetadata.serverArgs, label_of_holds hentry List.mem_cons_self hblank]
    simp only [decodeStrings_encodeStrings]

theorem storedResourceLimits_getD_zero (hm : request.policy.runMode = .managedSession) :
    (SessionMetadata.mk m).storedResourceLimits =
      .ok ⟨some (request.resourceLimits.cpus.getD .zero),
        some (request.resourceLimits.memory.getD .zero)⟩ := by
  obtain ⟨hcpus, hmemory⟩ := parse_storedOrZero request.resourceLimits
  have hc : (SessionMetadata.mk m).label LABEL_RESOURCE_LIMIT_CPUS =
      some request.resourceLimits.storedOrZero.cpus :=
    label_of_holds (h.limits hm) List.mem_cons_self (isBlank_storedOrZero _).1
  have hmem : (SessionMetadata.mk m).label LABEL_RESOURCE_LIMIT_MEMORY =
      some request.resourceLimits.storedOrZero.memory :=
    label_of_holds (h.limits hm) (List.mem_cons_of_mem _ List.mem_cons_self)
      (isBlank_storedOrZero _).2
  rw [SessionMetadata.storedResourceLimits, hc, hmem, SessionMetadata.parseOptional,
    SessionMetadata.parseOptional, hcpus, hmemory]
  rfl

theorem storedResourceLimits_managed (hm : request.policy.runMode = .managedSession) :
    ∃ stored, (SessionMetadata.mk m).storedResourceLimits = .ok stored ∧
      stored.podmanArgs = request.resourceLimits.podmanArgs :=
  ⟨_, storedResourceLimits_getD_zero h hm, podmanArgs_getD_zero _⟩

end

/-! ### The record of a server -/

def kindOf : RuntimeRunMode → AgentboxContainerKind
  | .transientServer => .run
  | .managedSession | .foreground => .managed

/-- The first binding of the runtime's port that has a host port has a numeric one. -/
def Publishes (ports : PortMap) (runtime : RuntimeKind) (endpoint : AttachEndpoint) : Prop :=
  ∃ bindings hostIp text, ports[runtime.attachSpec.tcpPortKey]? = some (some bindings) ∧
    bindings.find? (fun b => b.hostPort.isSome) = some ⟨hostIp, some text⟩ ∧
    parseU16 text = some endpoint.hostPort ∧ endpoint.scheme = runtime.attachSpec.scheme ∧
    endpoint.hostIp = (hostIp.filter fun ip => !isBlank ip).getD DEFAULT_HOST_ATTACH_IP

/-- Podman reports the server of the specification as running at the endpoint. -/
structure Reports (image : RuntimeImage) (spec : RuntimeRunSpec) (runtime : RuntimeKind)
    (endpoint : AttachEndpoint) (c : PodmanContainer) : Prop where
  running : c.running = true
  labels : c.labels = image.labels ∪ spec.create.labels
  mounts : ∀ mount ∈ spec.create.mounts, mount.kind = .volume →
    ⟨.volume, mount.destination⟩ ∈ c.mounts
  published : Publishes c.ports runtime endpoint

/-- The session is what was launched. -/
structure Recovered (request : RuntimeLaunchRequest) (endpoint : AttachEndpoint)
    (session : SessionRecord) : Prop where
  status : session.status = .running
  containerKind : session.containerKind = kindOf request.policy.runMode
  canonicalGitRoot : session.canonicalGitRoot = some request.workspace.canonicalGitRoot
  gitRootHash : session.gitRootHash = some request.workspace.hash12
  runtimeKind : session.runtimeKind = some request.runtime
  launchDirectory : session.launchDirectory = some request.workspace.canonicalTarget
  attachEndpoint : session.attachEndpoint = some endpoint
  serverArgs : request.policy.runMode = .managedSession →
    session.metadata.serverArgs = .ok request.serverArgs

/-- The stored limits mean the same to Podman. -/
def LimitsKept (request : RuntimeLaunchRequest) (session : SessionRecord) : Prop :=
  ∃ stored, session.metadata.storedResourceLimits = .ok stored ∧
    stored.podmanArgs = request.resourceLimits.podmanArgs

variable {image : RuntimeImage} {prep : RuntimeLaunchPreparation} {endpoint : AttachEndpoint}
  {c : PodmanContainer} {probe : GitRootProbe} {s : PodmanState}

theorem publishedAttachEndpoint_eq {ports : PortMap} {runtime : RuntimeKind}
    (h : Publishes ports runtime endpoint) :
    publishedAttachEndpoint ports runtime.attachSpec = .ok (some endpoint) := by
  obtain ⟨bindings, hostIp, text, hports, hfind, hport, hscheme, hip⟩ := h
  obtain ⟨scheme, ip, port⟩ := endpoint
  simp only at hport hscheme hip
  have hbinding : (ports[runtime.attachSpec.tcpPortKey]?.join.bind fun bindings =>
      bindings.find? fun b => b.hostPort.isSome) = some ⟨hostIp, some text⟩ := by
    rw [hports, Option.join_some, Option.bind_some, hfind]
  have hpublished : publishedHostPort ports runtime.attachSpec.tcpPortKey =
      .ok (some ⟨ip, port⟩) := by
    rw [publishedHostPort, hbinding]
    simp only [readU16_of_parseU16 hport]
    rw [hip]
  rw [publishedAttachEndpoint, hpublished, hscheme]
  rfl

theorem attachEndpointReport_reported (hw : IsResolved request.workspace)
    {inspect : PodmanContainerInspect} (h : ServerLabels request inspect.labels)
    (hports : Publishes inspect.ports request.runtime endpoint) :
    attachEndpointReport (SessionLabelReport.fromMetadata ⟨inspect.labels⟩) inspect =
      .ok endpoint := by
  have hattach : (SessionLabelReport.fromMetadata ⟨inspect.labels⟩).attachLabels =
      .ok request.runtime := by
    change (attachLabels ⟨inspect.labels⟩).mapError _ = _
    rw [attachLabels_server hw h]
    rfl
  have hendpoint : deriveAttachEndpoint request.runtime inspect = .ok endpoint := by
    rw [deriveAttachEndpoint, publishedAttachEndpoint_eq hports]
    rfl
  simp only [attachEndpointReport, hattach, bind, Except.bind, hendpoint]
  rfl

/-- The cache volume of a launch. -/
theorem cacheVolume_mem (h : IsPrepared request prep) : ∃ mount ∈ prep.runSpec.create.mounts,
    mount.kind = .volume ∧ mount.destination = NIX_CACHE_DESTINATION := by
  obtain ⟨preparation, invocation, passthrough, -, hspec⟩ := h
  have hmounts : (launchRunSpec request preparation invocation passthrough).create.mounts =
      (builtSpec request preparation invocation passthrough).create.mounts := by
    rw [launchRunSpec_eq]
    unfold recordManagedResourceLimits recordRuntimeImageVersion
    split_ifs <;> split <;> rfl
  rw [hspec, hmounts]
  refine ⟨⟨.volume, request.workspace.containerName, NIX_CACHE_DESTINATION, false⟩, ?_, rfl, rfl⟩
  exact List.mem_append_left _ (List.mem_cons_of_mem _ List.mem_cons_self)

section
variable (hw : IsResolved request.workspace) (hmode : request.policy.runMode ≠ .foreground)
  (hprep : IsPrepared request prep) (hreports : Reports image prep.runSpec request.runtime endpoint c)
include hmode hprep hreports

theorem serverLabels_reported : ServerLabels request c.labels := by
  rw [hreports.labels]
  exact (hprep.serverLabels hmode).union image

theorem kind_reported : c.kind = some (kindOf request.policy.runMode) ∧
    requireAgentboxContainerMarker ⟨c.labels⟩ = .ok () := by
  have hlabels := serverLabels_reported hmode hprep hreports
  rcases hm : request.policy.runMode with _ | _ | _
  · exact kind_managed hlabels hm
  · exact kind_transient hlabels hm
  · exact absurd hm hmode

include hw

theorem healthy_reported : Healthy c.inspected request.workspace.canonicalGitRoot where
  complete := by
    have hlabels := serverLabels_reported hmode hprep hreports
    have himage : (SessionMetadata.mk c.labels).label LABEL_IMAGE =
        some (defaultImage request.runtime) := label_server hw hlabels
      (by simp [serverEntries, labelInput, ManagedSessionLabelInput.fromWorkspace])
    have hname : (SessionMetadata.mk c.labels).label LABEL_LOGICAL_NAME =
        some request.workspace.containerName := label_server hw hlabels
      (by simp [serverEntries, labelInput, ManagedSessionLabelInput.fromWorkspace])
    exact ⟨request.workspace.canonicalTarget, ⟨(kind_reported hmode hprep hreports).2,
      canonicalGitRoot_server hw hlabels, gitRootHash_server hw hlabels⟩, ⟨_, himage⟩, ⟨_, hname⟩,
      launchDirectory_server hw hlabels, hw.target_isAbsolute, hw.isDescendant⟩
  endpoint := by
    have hlabels := serverLabels_reported hmode hprep hreports
    exact ⟨endpoint, attachEndpointReport_reported hw hlabels hreports.published⟩
  cacheMount := by
    obtain ⟨mount, hmem, hkind, hdest⟩ := cacheVolume_mem hprep
    refine List.any_eq_true.2 ⟨_, hreports.mounts mount hmem hkind, ?_⟩
    rw [hdest]
    rfl
  running := hreports.running

/-- The record of the server, before duplicates are marked. -/
theorem recovered_record
    (hroot : gitRootIsOrphaned request.workspace.canonicalGitRoot probe = false) :
    Recovered request endpoint (record probe c (kindOf request.policy.runMode)) where
  status := by
    have hhealthy := healthy_reported hw hmode hprep hreports
    obtain ⟨-, -, hno⟩ | ⟨root, hroot', hstatus⟩ :=
      status_cases c.listed c.inspected (kindOf request.policy.runMode) probe
    · exact absurd hhealthy (hno _)
    · obtain ⟨_, hcomplete⟩ := hroot'.complete
      have heq : some root = some request.workspace.canonicalGitRoot :=
        hcomplete.gitRoot.symm.trans
          (canonicalGitRoot_server hw (serverLabels_reported hmode hprep hreports))
      rw [record, hstatus, Option.some.inj heq, hroot]
      rfl
  containerKind := rfl
  canonicalGitRoot := canonicalGitRoot_server hw (serverLabels_reported hmode hprep hreports)
  gitRootHash := hw.hash12_eq ▸ gitRootHash_server hw (serverLabels_reported hmode hprep hreports)
  runtimeKind := runtimeKind_server hw (serverLabels_reported hmode hprep hreports)
  launchDirectory := launchDirectory_server hw (serverLabels_reported hmode hprep hreports)
  attachEndpoint := by
    have hreport : attachEndpointReport _ c.inspected = .ok endpoint :=
      attachEndpointReport_reported hw (serverLabels_reported hmode hprep hreports)
        hreports.published
    exact congrArg Except.toOption hreport
  serverArgs hm := serverArgs_managed (serverLabels_reported hmode hprep hreports) hm

end

/-! ### Discovery -/

/-- A root that one container claims has no duplicates. -/
theorem claimants_le_one {gitRoot : Utf8Path} {scope : SessionDiscoveryScope}
    {containerScope : ContainerDiscoveryScope} (p : SessionRecord → Bool)
    (honly : ∀ c' ∈ s.containers, countsFor probe gitRoot c' = true → c' = c) :
    claimants ((records probe s scope containerScope).filter p) gitRoot.components ≤ 1 := by
  set counted : PodmanContainer × AgentboxContainerKind → Bool := fun q =>
    countedRoot (record probe q.1 q.2) = some gitRoot.components with hcounted
  have hle : claimants ((records probe s scope containerScope).filter p) gitRoot.components ≤
      ((inspectedContainers s scope containerScope).filter counted).length := by
    rw [claimants, records, List.filter_map, List.filter_map, List.length_map, List.filter_filter]
    refine (List.monotone_filter_right _ fun q hq => ?_).length_le
    exact (Bool.and_eq_true _ _ ▸ hq).1
  have hnodup : (((inspectedContainers s scope containerScope).filter counted).map
      Prod.fst).Nodup :=
    (nodup_inspectedContainers s scope containerScope).sublist (List.filter_sublist.map _)
  have hsub : ((inspectedContainers s scope containerScope).filter counted).map Prod.fst ⊆ [c] := by
    intro c' hc'
    obtain ⟨q, hq, rfl⟩ := List.mem_map.1 hc'
    obtain ⟨hin, hq⟩ := List.mem_filter.1 hq
    obtain ⟨hmem, -, hkind⟩ := mem_inspectedContainers.1 hin
    rw [hcounted, decide_eq_true_eq, countedRoot_record] at hq
    refine List.mem_singleton.2 (honly q.1 hmem ?_)
    rw [countsFor, hkind]
    exact hq
  have hlen := (hnodup.subperm hsub).length_le
  rw [List.length_map, List.length_singleton] at hlen
  omega

/-- The discovery finds the container as what was launched. -/
def Finds (request : RuntimeLaunchRequest) (endpoint : AttachEndpoint) (c : PodmanContainer)
    (discovered : Except Error (List SessionRecord)) : Prop :=
  ∃ sessions, discovered = .ok sessions ∧ ∃ session ∈ sessions, session.containerId = c.id ∧
    Recovered request endpoint session ∧
      (request.policy.runMode = .managedSession → LimitsKept request session)

/-- A record that is the only one that counts for its root is not marked. -/
theorem mem_markDuplicateSessions {l : List SessionRecord} {r : SessionRecord} {gitRoot : Utf8Path}
    (hr : r ∈ l) (hroot : r.canonicalGitRoot = some gitRoot)
    (hone : claimants l gitRoot.components ≤ 1) : r ∈ markDuplicateSessions l := by
  have hdup : isDuplicate l r = false := by
    rw [isDuplicate, Option.any_eq_false]
    intro root hcount
    obtain ⟨-, path, hpath, rfl⟩ := countedRoot_eq_some.1 hcount
    rw [hroot] at hpath
    cases hpath
    rw [decide_eq_false_iff_not]
    omega
  rw [markDuplicateSessions_eq]
  exact List.mem_map.2 ⟨r, hr, by rw [hdup]; rfl⟩

/-- **The round trip of container metadata.** A server that runs as it was launched, whose root is
not orphaned and claimed by no other container, is discovered as what was launched; only a container
with the hash of the root and another root can make the discovery of the root fail. -/
theorem roundTrip {σ : Type} {M : Machine HostOps σ} {w w' : σ} {t : List (Event HostOps σ)}
    {host : Host} {directory : OsPath} {containerScope : ContainerDiscoveryScope}
    (hw : resolveWorkspaceIdentity host directory = .ok request.workspace)
    (hmode : request.policy.runMode ≠ .foreground)
    (hprep : Exec M (prepareRuntimeLaunch request) w t w' (.ok prep))
    (hreports : Reports image prep.runSpec request.runtime endpoint c) (hc : c ∈ s.containers)
    (hroot : gitRootIsOrphaned request.workspace.canonicalGitRoot probe = false)
    (honly : ∀ c' ∈ s.containers, countsFor probe request.workspace.canonicalGitRoot c' = true →
      c' = c)
    (hscope : containerScope.includes (kindOf request.policy.runMode) = true) :
    Finds request endpoint c (view probe s .all containerScope) ∧
    (Finds request endpoint c
        (view probe s (.forGitRoot request.workspace.canonicalGitRoot) containerScope) ∨
      ∃ c' ∈ s.containers, ∃ kind, c'.kind = some kind ∧
        collides request.workspace.canonicalGitRoot (record probe c' kind) = true) := by
  have hresolved := isResolved_of_ok hw
  have hprepared := isPrepared_of_exec hprep
  have hlabels := serverLabels_reported hmode hprepared hreports
  have hkind := (kind_reported hmode hprepared hreports).1
  have hrecovered := recovered_record hresolved hmode hprepared hreports hroot
  have hlimits : request.policy.runMode = .managedSession →
      LimitsKept request (record probe c (kindOf request.policy.runMode)) :=
    fun hm => storedResourceLimits_managed hlabels hm
  have hhash : requiredLabelValue c.labels LABEL_GIT_ROOT_HASH =
      some (gitRootHash12 request.workspace.canonicalGitRoot) :=
    gitRootHash_server hresolved hlabels
  have hmem : ∀ scope : SessionDiscoveryScope, scope.shouldInspectPsCandidate c.listed = true →
      record probe c (kindOf request.policy.runMode) ∈ records probe s scope containerScope := by
    intro scope hinspect
    refine mem_records.2 ⟨c, _, hc, ?_, hkind, rfl⟩
    rw [isCandidate, hkind, Option.any_some, hscope, hinspect]
    rfl
  constructor
  · refine ⟨_, collected_all _, _, ?_, rfl, hrecovered, hlimits⟩
    refine mem_markDuplicateSessions (hmem .all rfl) hrecovered.canonicalGitRoot ?_
    rw [← List.filter_true (records probe s .all containerScope)]
    exact claimants_le_one _ honly
  · obtain ⟨-, hok⟩ := collected_gitRoot request.workspace.canonicalGitRoot
      (records probe s (.forGitRoot request.workspace.canonicalGitRoot) containerScope)
    by_cases hcol : (records probe s (.forGitRoot request.workspace.canonicalGitRoot)
        containerScope).any (collides request.workspace.canonicalGitRoot) = true
    · obtain ⟨r, hr, hcollides⟩ := List.any_eq_true.1 hcol
      obtain ⟨c', kind, hc', -, hkind', rfl⟩ := mem_records.1 hr
      exact .inr ⟨c', hc', kind, hkind', hcollides⟩
    · refine .inl ⟨_, hok (Bool.not_eq_true _ ▸ hcol), _, ?_, rfl, hrecovered, hlimits⟩
      refine mem_markDuplicateSessions (List.mem_filter.2 ⟨hmem _ ?_, ?_⟩)
        hrecovered.canonicalGitRoot (claimants_le_one _ honly)
      · rw [shouldInspect_forGitRoot]
        change (requiredLabelValue c.labels LABEL_GIT_ROOT_HASH).all _ = true
        rw [hhash]
        exact beq_self_eq_true _
      · rw [belongs, hrecovered.canonicalGitRoot, some_beq_some, Utf8Path.beq_self]
        rfl

/-! ### A launch -/

/-- Every path in normal spelling is there, in one repository. -/
def demoHost : Host where
  currentDir := .ok (.utf8 demoRoot)
  exists_ _ := true
  canonicalize p := if p.isAbsolute ∧ p.IsNormal then .ok (.utf8 p) else .error (.msg "no such path")
  isDir _ := true
  isFile _ := true
  gitToplevel _ := .ok ⟨true, demoRoot.asStr, "", ""⟩
  canonicalize_isAbsolute p q h := by
    split_ifs at h with hp
    cases h
    exact hp.1
  canonicalize_isNormal p q h := by
    split_ifs at h with hp
    cases h
    exact hp.2

theorem resolve_demo : resolveWorkspaceIdentity demoHost (.utf8 demoRoot) = .ok demoWorkspace := by
  rfl

def demoWorld : WorldState := ⟨⟨[], by decide⟩, demoHost, fun _ => none, []⟩

theorem isCpuLimit_two : isCpuLimit "2" = true := by decide +kernel

def demoRequest (policy : RuntimeLaunchPolicy) : RuntimeLaunchRequest where
  workspace := demoWorkspace
  runtime := .opencode
  devEnvMode := .none
  policy
  serverArgs := []
  resourceLimits := ⟨some ⟨"2", isCpuLimit_two⟩, none⟩

def demoPreparation (policy : RuntimeLaunchPolicy) : RuntimeLaunchPreparation where
  runSpec := launchRunSpec (demoRequest policy) ⟨⟨[], [], ∅⟩, .none, none⟩
    ⟨RuntimeKind.opencode.serverCommand, demoRoot⟩ ⟨[], ∅⟩
  codexAttachToken := none

theorem result_demo {runMode : RuntimeRunMode} {hostClient : HostClientRequirement} {v : Bool} :
    (prepareRuntimeLaunch (demoRequest ⟨runMode, hostClient, .requireAbsent .agentboxContainers,
      v⟩)).result oblige demoWorld = (.ok (demoPreparation ⟨runMode, hostClient,
        .requireAbsent .agentboxContainers, v⟩), demoWorld) := by
  have hdiscover : (discoverExistingResources demoWorkspace .agentboxContainers).result oblige
      demoWorld = (.ok [], demoWorld) := by
    refine (result_discover _ _ _).trans ?_
    rw [view_of_nil _ _ _ rfl]
  have habsent : (ensureRequiredResourcesAbsent demoWorkspace
      (.requireAbsent .agentboxContainers)).result oblige demoWorld = (.ok (), demoWorld) :=
    result_bind_ok hdiscover _
  have hcontainer : (prepareContainerLaunchForWorkspace (demoRequest ⟨runMode, hostClient,
      .requireAbsent .agentboxContainers, v⟩)).result oblige demoWorld =
        (.ok ⟨⟨[], [], ∅⟩, .none, none⟩, demoWorld) := by
    change ((ensureRequiredResourcesAbsent demoWorkspace
      (.requireAbsent .agentboxContainers)).bind _).result oblige demoWorld = _
    rw [result_bind_ok habsent]
    cases hostClient <;> rfl
  exact result_bind_ok hcontainer _

theorem exec_demo {runMode : RuntimeRunMode} {hostClient : HostClientRequirement} {v : Bool} :
    ∃ t, Exec (worldMachine Eq) (prepareRuntimeLaunch (demoRequest ⟨runMode, hostClient,
      .requireAbsent .agentboxContainers, v⟩)) demoWorld t demoWorld (.ok (demoPreparation
        ⟨runMode, hostClient, .requireAbsent .agentboxContainers, v⟩)) := by
  have hexec := exec_run (fun w => Eq.refl w) (prepareRuntimeLaunch (demoRequest ⟨runMode,
    hostClient, .requireAbsent .agentboxContainers, v⟩)) demoWorld
  obtain ⟨hres, hworld⟩ := Prod.mk.inj (@result_demo runMode hostClient v)
  rw [hres, hworld] at hexec
  exact ⟨_, hexec⟩

/-- The started server is reported as it was launched. -/
theorem reports_started (hprep : IsPrepared request prep) (hmode : request.policy.runMode ≠ .foreground)
    (name : String) : Reports demoImage prep.runSpec request.runtime
      ⟨request.runtime.attachSpec.scheme, DEFAULT_HOST_ATTACH_IP, 40000⟩
      (started name prep.runSpec) where
  running := rfl
  labels := rfl
  mounts mount hmount hkind := by
    refine List.mem_map.2 ⟨mount, hmount, ?_⟩
    rw [podmanMount, hkind]
  published := by
    have hmem : (LABEL_CONTAINER_PORT, s!"{request.runtime.attachSpec.containerPort}") ∈
        serverEntries (labelInput request) := by
      simp [serverEntries, labelInput, ManagedSessionLabelInput.fromWorkspace]
    have hport := (hprep.serverLabels hmode).server _ hmem
    have hparse : parseU16 "40000" = some 40000 := by decide
    refine ⟨[⟨none, some "40000"⟩], none, "40000", ?_, rfl, hparse, rfl, rfl⟩
    have hports := @holds_ofList (Option (List PodmanPortBinding)) String compare _
      [(request.runtime.attachSpec.tcpPortKey, some [PodmanPortBinding.mk none (some "40000")])] _
      (List.nodup_singleton _) _ List.mem_cons_self
    have hkey : prep.runSpec.create.labels[LABEL_CONTAINER_PORT]?.getD "" ++ "/tcp" =
        request.runtime.attachSpec.tcpPortKey := by
      rw [hport]
      cases request.runtime <;> rfl
    rw [started, hkey]
    exact hports

def demoServer (policy : RuntimeLaunchPolicy) : PodmanContainer :=
  started demoWorkspace.containerName (demoPreparation policy).runSpec

theorem nodup_refs_started (name : String) (spec : RuntimeRunSpec) :
    (started name spec).refs.Nodup := by
  have hne : "id-" ++ name ≠ name := by
    intro h
    have hlen := congrArg (fun s => s.toList.length) h
    simp only [String.toList_append, List.length_append] at hlen
    have hid : "id-".toList.length = 3 := rfl
    omega
  exact List.nodup_cons.2 ⟨fun h => hne (List.mem_singleton.1 h), List.nodup_singleton _⟩

def demoServers (policy : RuntimeLaunchPolicy) : PodmanState where
  containers := [demoServer policy]
  distinct := by
    rw [List.flatMap_cons, List.flatMap_nil, List.append_nil]
    exact nodup_refs_started _ _

def demoEndpoint : AttachEndpoint := ⟨"http", DEFAULT_HOST_ATTACH_IP, 40000⟩

theorem demo_not_orphaned : gitRootIsOrphaned demoRoot demoHost.gitRootProbe = false := by rfl

theorem isPrepared_demo {runMode : RuntimeRunMode} {hostClient : HostClientRequirement} {v : Bool} :
    IsPrepared (demoRequest ⟨runMode, hostClient, .requireAbsent .agentboxContainers, v⟩)
      (demoPreparation ⟨runMode, hostClient, .requireAbsent .agentboxContainers, v⟩) := by
  obtain ⟨t, hexec⟩ := @exec_demo runMode hostClient v
  exact isPrepared_of_exec hexec

theorem roundTrip_demo : Finds (demoRequest (.managedServer false)) demoEndpoint
    (demoServer (.managedServer false))
    (view demoHost.gitRootProbe (demoServers (.managedServer false)) .all .managedSessions) := by
  obtain ⟨t, hexec⟩ : ∃ t, Exec (worldMachine Eq) (prepareRuntimeLaunch (demoRequest
    (.managedServer false))) demoWorld t demoWorld (.ok (demoPreparation (.managedServer false))) :=
    exec_demo
  exact (roundTrip resolve_demo (by decide) hexec (reports_started isPrepared_demo (by decide) _)
    List.mem_cons_self demo_not_orphaned (fun c' hc' _ => List.mem_singleton.1 hc') rfl).1

/-- A transient server with a limit runs as it was launched, and its record has no limits. -/
theorem not_limitsKept_transient :
    resolveWorkspaceIdentity demoHost (.utf8 demoRoot) =
      .ok (demoRequest .transientServer).workspace ∧
    (∃ t, Exec (worldMachine Eq) (prepareRuntimeLaunch (demoRequest .transientServer)) demoWorld t
      demoWorld (.ok (demoPreparation .transientServer))) ∧
    Reports demoImage (demoPreparation .transientServer).runSpec .opencode demoEndpoint
      (demoServer .transientServer) ∧
    gitRootIsOrphaned demoRoot demoHost.gitRootProbe = false ∧
    (demoServers .transientServer).containers = [demoServer .transientServer] ∧
    ∃ sessions, view demoHost.gitRootProbe (demoServers .transientServer) .all .agentboxOwned =
      .ok sessions ∧ ∀ session ∈ sessions, ¬ LimitsKept (demoRequest .transientServer) session := by
  have hprep : IsPrepared (demoRequest .transientServer) (demoPreparation .transientServer) :=
    isPrepared_demo
  have hreports := reports_started hprep (by decide) demoWorkspace.containerName
  refine ⟨resolve_demo, exec_demo, hreports, demo_not_orphaned, rfl, _, collected_all _, ?_⟩
  intro session hsession
  rw [markDuplicateSessions_eq] at hsession
  obtain ⟨r, hr, rfl⟩ := List.mem_map.1 hsession
  obtain ⟨c, kind, hc, -, -, rfl⟩ := mem_records.1 hr
  rw [List.mem_singleton.1 hc]
  have hlacks : Lacks (demoServer .transientServer).labels
      [LABEL_MANAGED, LABEL_RESOURCE_LIMIT_CPUS, LABEL_RESOURCE_LIMIT_MEMORY] :=
    (serverLabels_reported (by decide) hprep hreports).noLimits rfl
  have hstored : (SessionMetadata.mk (demoServer .transientServer).labels).storedResourceLimits =
      .ok ⟨none, none⟩ := by
    have hcpus := label_of_lacks hlacks (show LABEL_RESOURCE_LIMIT_CPUS ∈ _ by decide)
    have hmemory := label_of_lacks hlacks (show LABEL_RESOURCE_LIMIT_MEMORY ∈ _ by decide)
    rw [SessionMetadata.storedResourceLimits, hcpus, hmemory]
    rfl
  rintro ⟨stored, hok, hargs⟩
  have hmeta : (SessionMetadata.mk (demoServer .transientServer).labels).storedResourceLimits =
      .ok stored := by
    rw [← hok]
    split_ifs <;> rfl
  rw [hstored, Except.ok.injEq] at hmeta
  subst hmeta
  cases hargs

end Agentbox.Commands.RoundTrip
