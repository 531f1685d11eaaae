import Agentbox.Commands.RoundTrip
import Agentbox.SshSigning.HostPassthrough

/-! # Mount destinations

The destinations of a launch are the git root, the directory of `CODEX_HOME` where that is used, and
destinations that agentbox fixes. The fixed ones are different paths; the two that the host chooses
are compared with nothing before Podman is asked to start the container. -/

namespace Agentbox.Commands.MountDestinations

open Agentbox.Base.Path Agentbox.Base.Errors Agentbox.Files.Snapshot
  Agentbox.Commands.ContainerLaunch Agentbox.Commands.HostCalls Agentbox.Preflight.Path
  Agentbox.Preflight.Check Agentbox.Preflight.Snapshot Agentbox.Runtime.HostState
  Agentbox.Runtime.Kind Agentbox.Runtime.Spec Agentbox.SshSigning.SigningKey
  Agentbox.SshSigning.HostPassthrough Agentbox.Workspace.Identity
open Agentbox.Commands.RoundTrip (demoHost)

/-- A destination as Podman compares it. -/
def normalizedDestination (destination : String) : List Component :=
  normalizePath (⟨destination⟩ : Utf8Path).components

/-- The directory that `CODEX_HOME` names, for a launch that mounts it at its own path. -/
def codexHome (snapshot : PreflightSnapshot) :
    RuntimeKind → RuntimeRunMode → Option Utf8Path
  | .opencode, _ | .codex, .foreground => none
  | .codex, .managedSession | .codex, .transientServer =>
    (snapshot.host.runtimeState[CODEX_CONFIG_DESTINATION]?).bind fun state =>
      if state.sourceEnvironmentVariable = some CODEX_HOME_ENV then state.source else none

/-! ### The fixed destinations -/

def nixDestinations (snapshot : PreflightSnapshot) : List String :=
  [NIX_STORE_DESTINATION, NIX_CLIENT_DESTINATION, ETC_NIX_DESTINATION] ++
    if snapshot.nix.config.customConf.needsStaticMount then [ETC_STATIC_NIX_DESTINATION] else []

def stateDestinations (snapshot : PreflightSnapshot) (runMode : RuntimeRunMode) :
    RuntimeKind → List String
  | .opencode => [OPENCODE_CONFIG_DESTINATION, OPENCODE_DATA_DESTINATION]
  | .codex =>
    if (codexHome snapshot .codex runMode).isSome then [] else [CODEX_CONFIG_DESTINATION]

def passthroughDestinations (host : PassthroughHost) (gitRoot : Utf8Path) : List String :=
  (if (waylandSocket host).isSome then [CONTAINER_WAYLAND_DISPLAY] else []) ++
  (if (gitExcludes host gitRoot).mount.isSome then [CONTAINER_GIT_EXCLUDES_FILE] else []) ++
  (if usableAgent host then CONTAINER_SSH_AUTH_SOCK ::
    (if (host.knownHostsFile gitRoot).isSome then [CONTAINER_KNOWN_HOSTS] else []) else [])

/-- The destinations of a launch that do not depend on paths of the host. -/
def fixedDestinations (host : PassthroughHost) (snapshot : PreflightSnapshot)
    (request : RuntimeLaunchRequest) : List String :=
  NIX_CACHE_DESTINATION :: nixDestinations snapshot ++
    stateDestinations snapshot request.policy.runMode request.runtime ++
    passthroughDestinations host request.workspace.canonicalGitRoot

def allFixedDestinations : List String :=
  NIX_CACHE_DESTINATION ::
    [NIX_STORE_DESTINATION, NIX_CLIENT_DESTINATION, ETC_NIX_DESTINATION,
      ETC_STATIC_NIX_DESTINATION] ++
    [OPENCODE_CONFIG_DESTINATION, OPENCODE_DATA_DESTINATION, CODEX_CONFIG_DESTINATION] ++
    [CONTAINER_WAYLAND_DISPLAY, CONTAINER_GIT_EXCLUDES_FILE, CONTAINER_SSH_AUTH_SOCK,
      CONTAINER_KNOWN_HOSTS]

theorem nodup_allFixedDestinations :
    (allFixedDestinations.map normalizedDestination).Nodup := by decide +kernel

section
variable {host : PassthroughHost} {gitRoot : Utf8Path} {snapshot : PreflightSnapshot}
  {runtime : RuntimeKind} {runMode : RuntimeRunMode} {request : RuntimeLaunchRequest}

theorem passthroughDestinations_sublist : (passthroughDestinations host gitRoot).Sublist
    [CONTAINER_WAYLAND_DISPLAY, CONTAINER_GIT_EXCLUDES_FILE, CONTAINER_SSH_AUTH_SOCK,
      CONTAINER_KNOWN_HOSTS] := by
  unfold passthroughDestinations
  split_ifs <;> decide

theorem stateDestinations_sublist : (stateDestinations snapshot runMode runtime).Sublist
    [OPENCODE_CONFIG_DESTINATION, OPENCODE_DATA_DESTINATION, CODEX_CONFIG_DESTINATION] := by
  unfold stateDestinations
  split
  · decide
  · split_ifs <;> decide

theorem nixDestinations_sublist : (nixDestinations snapshot).Sublist
    [NIX_STORE_DESTINATION, NIX_CLIENT_DESTINATION, ETC_NIX_DESTINATION,
      ETC_STATIC_NIX_DESTINATION] := by
  unfold nixDestinations
  split_ifs <;> decide

/-- No two fixed destinations are one path. -/
theorem nodup_fixedDestinations :
    ((fixedDestinations host snapshot request).map normalizedDestination).Nodup := by
  have hsub : (fixedDestinations host snapshot request).Sublist allFixedDestinations :=
    ((nixDestinations_sublist.cons_cons _).append stateDestinations_sublist).append
      passthroughDestinations_sublist
  exact (hsub.map _).nodup nodup_allFixedDestinations

/-! ### The destinations of a launch -/

theorem destinations_hostNixMounts (client : Utf8Path) :
    (hostNixMounts client snapshot.nix.config.customConf.needsStaticMount).map (·.destination) =
      nixDestinations snapshot := by
  unfold nixDestinations
  cases snapshot.nix.config.customConf.needsStaticMount <;> rfl

theorem destination_of_isMounted_fixed {spec : RuntimeHostStateMount} {mount : RuntimeMount}
    {destination : String} (h : IsMounted snapshot spec mount)
    (hspec : spec.destination = .fixed destination) : mount.destination = destination := by
  obtain ⟨state, source, -, -, hresolve, -⟩ := h
  rw [hspec] at hresolve
  exact (Except.ok.inj hresolve).symm

/-- A Codex server mounts the directory of `CODEX_HOME` at its path, and another one at the fixed
destination. -/
theorem destination_of_isMounted_server {spec : RuntimeHostStateMount} {mount : RuntimeMount}
    (h : IsMounted snapshot spec mount)
    (hspec : spec.destination =
      .sourcePathWhenEnvironment CODEX_HOME_ENV CODEX_CONFIG_DESTINATION) :
    [mount.destination] = (codexHome snapshot .codex .managedSession).toList.map (·.asStr) ++
      stateDestinations snapshot .managedSession .codex := by
  obtain ⟨state, source, hstate, hsource, hresolve, -⟩ := h
  rw [RuntimeHostStateMount.snapshotKey, hspec] at hstate
  rw [hspec] at hresolve
  have hhome : codexHome snapshot .codex .managedSession =
      if state.sourceEnvironmentVariable = some CODEX_HOME_ENV then state.source else none := by
    rw [codexHome]
    exact congrArg (Option.bind · _) hstate
  rw [stateDestinations, hhome, hsource]
  simp only [RuntimeHostStateDestination.resolve] at hresolve
  split_ifs at hresolve with hvariable habsolute
  · rw [if_pos hvariable, ← Except.ok.inj hresolve]
    rfl
  · rw [if_neg hvariable, ← Except.ok.inj hresolve]
    rfl

theorem destinations_runtimeMounts {preflight : RuntimeHostStatePreflight}
    (h : runtimeMounts snapshot runtime runMode = .ok preflight) :
    preflight.mounts.map (·.destination) =
      (codexHome snapshot runtime runMode).toList.map (·.asStr) ++
        stateDestinations snapshot runMode runtime := by
  obtain ⟨mounts, hmounts, hall⟩ := runtimeMountsFor_mounts _ _ h
  rw [hmounts, List.nil_append]
  rcases runtime with _ | _
  · obtain _ | ⟨hconfig, _ | ⟨hdata, _ | _⟩⟩ := hall
    simp only [List.map_cons, List.map_nil, destination_of_isMounted_fixed hconfig rfl,
      destination_of_isMounted_fixed hdata rfl]
    rfl
  · cases runMode with
    | foreground =>
      obtain _ | ⟨hconfig, _ | _⟩ := hall
      simp only [List.map_cons, List.map_nil, destination_of_isMounted_fixed hconfig rfl]
      rfl
    | managedSession =>
      obtain _ | ⟨hconfig, _ | _⟩ := hall
      exact destination_of_isMounted_server hconfig rfl
    | transientServer =>
      obtain _ | ⟨hconfig, _ | _⟩ := hall
      exact destination_of_isMounted_server hconfig rfl

variable {gitIdentity : GitIdentityPassthrough} {preparation : ContainerLaunchPreparation}
  {invocation : RuntimeInvocation}

/-- The git root, `CODEX_HOME` where it is used, and the fixed destinations. -/
theorem destinations_launchRunSpec
    (hreport : checkHostPrerequisitesWithSnapshot snapshot request.runtime
      request.policy.runMode = .ok preparation.preflight) :
    ((launchRunSpec request preparation invocation (detectPassthrough host
        request.workspace.canonicalGitRoot gitIdentity)).create.mounts.map (·.destination)).Perm
      (request.workspace.canonicalGitRoot.asStr ::
        (codexHome snapshot request.runtime request.policy.runMode).toList.map (·.asStr) ++
          fixedDestinations host snapshot request) := by
  obtain ⟨client, hnix, hmounts⟩ := checkHostPrerequisites_ok hreport
  have hstate := destinations_runtimeMounts hmounts
  rw [mounts_launchRunSpec, List.map_append, destinations_detectPassthrough,
    runtimeMountsForWorkspace, hnix]
  simp only [List.map_cons, List.map_append, hstate, destinations_hostNixMounts]
  rw [fixedDestinations, ← passthroughDestinations]
  have hcomm : (NIX_CACHE_DESTINATION :: nixDestinations snapshot ++
      (codexHome snapshot request.runtime request.policy.runMode).toList.map (·.asStr)).Perm
        ((codexHome snapshot request.runtime request.policy.runMode).toList.map (·.asStr) ++
          NIX_CACHE_DESTINATION :: nixDestinations snapshot) := List.perm_append_comm
  have hperm := hcomm.append_right (stateDestinations snapshot request.policy.runMode request.runtime ++
      passthroughDestinations host request.workspace.canonicalGitRoot)
  simp only [List.append_assoc, List.cons_append] at hperm ⊢
  exact hperm.cons _

/-- The launch asks for no destination twice exactly when the paths of the host are different paths
and none of the fixed ones. -/
theorem nodup_destinations_iff (host : PassthroughHost) (gitIdentity : GitIdentityPassthrough)
    (snapshot : PreflightSnapshot) (request : RuntimeLaunchRequest)
    (preparation : ContainerLaunchPreparation) (invocation : RuntimeInvocation)
    (hreport : checkHostPrerequisitesWithSnapshot snapshot request.runtime
      request.policy.runMode = .ok preparation.preflight) :
    ((launchRunSpec request preparation invocation (detectPassthrough host
        request.workspace.canonicalGitRoot gitIdentity)).create.mounts.map
          fun mount => normalizedDestination mount.destination).Nodup ↔
      let gitRoot := request.workspace.canonicalGitRoot.asStr
      let fixed := (fixedDestinations host snapshot request).map normalizedDestination
      normalizedDestination gitRoot ∉ fixed ∧
      ∀ home, codexHome snapshot request.runtime request.policy.runMode = some home →
        normalizedDestination home.asStr ∉ normalizedDestination gitRoot :: fixed := by
  have hfixed : ((fixedDestinations host snapshot request).map normalizedDestination).Nodup :=
    nodup_fixedDestinations
  rw [← Function.comp_def normalizedDestination, ← List.map_map]
  refine ((destinations_launchRunSpec hreport).map normalizedDestination).nodup_iff.trans ?_
  rcases codexHome snapshot request.runtime request.policy.runMode with _ | home
  · simp only [Option.toList_none, List.map_nil, List.cons_append, List.nil_append, List.map_cons,
      List.nodup_cons, hfixed, and_true, reduceCtorEq, false_implies, implies_true]
  · simp only [Option.toList_some, List.map_cons, List.map_nil, List.cons_append, List.nil_append,
      List.nodup_cons, List.mem_cons, not_or, hfixed, and_true, Option.some.injEq, forall_eq']
    constructor
    · rintro ⟨⟨hne, hroot⟩, hhome⟩
      exact ⟨hroot, fun heq => hne heq.symm, hhome⟩
    · rintro ⟨hroot, hne, hhome⟩
      exact ⟨⟨fun heq => hne heq.symm, hroot⟩, hhome⟩

end

/-- A host on which every absolute path is a directory of the root's repository. -/
def hostAt (root : Utf8Path) : Host :=
  { demoHost with
    currentDir := .ok (.utf8 root)
    isFile := fun _ => false
    gitToplevel := fun _ => .ok ⟨true, root.asStr, "", ""⟩ }

/-- `CODEX_HOME` set to the directory. -/
def codexHomeSnapshot (directory : String) : PreflightSnapshot :=
  passingSnapshot [(CODEX_CONFIG_DESTINATION,
    { usableDirectory directory with sourceEnvironmentVariable := some CODEX_HOME_ENV })]

/-- A managed Codex server for a root. -/
def codexRequest (root : Utf8Path) : RuntimeLaunchRequest :=
  managedServerLaunchRequest (workspaceAt root) .codex .none false [] ⟨none, none⟩

theorem exists_codexReport (directory root : String)
    (h : (checkHostPrerequisitesWithSnapshot (codexHomeSnapshot directory) .codex
      .managedSession).toOption.isSome = true) :
    ∃ preflight, checkHostPrerequisitesWithSnapshot (codexHomeSnapshot directory)
      (codexRequest ⟨root⟩).runtime (codexRequest ⟨root⟩).policy.runMode = .ok preflight := by
  change ∃ preflight, checkHostPrerequisitesWithSnapshot (codexHomeSnapshot directory) .codex
    .managedSession = .ok preflight
  rcases hreport : checkHostPrerequisitesWithSnapshot (codexHomeSnapshot directory) .codex
    .managedSession with e | preflight
  · rw [hreport] at h
    cases h
  · exact ⟨preflight, rfl⟩

theorem nodup_destinations_iff_codexHome : ∃ preflight,
    ((launchRunSpec (codexRequest ⟨"/src/box"⟩) ⟨preflight, .none, none⟩ ⟨[], ⟨"/src/box"⟩⟩
      (detectPassthrough signingHost ⟨"/src/box"⟩ .host)).create.mounts.map
        fun mount => normalizedDestination mount.destination).Nodup := by
  obtain ⟨preflight, hreport⟩ := exists_codexReport "/home/alice/codex" "/src/box"
    (by decide +kernel)
  refine ⟨preflight, (nodup_destinations_iff signingHost .host _ (codexRequest ⟨"/src/box"⟩)
    ⟨preflight, .none, none⟩ ⟨[], ⟨"/src/box"⟩⟩ hreport).2 ⟨by decide +kernel, ?_⟩⟩
  have hhome : codexHome (codexHomeSnapshot "/home/alice/codex") .codex .managedSession =
      some ⟨"/home/alice/codex"⟩ := by decide +kernel
  rintro home heq
  obtain rfl := Option.some.inj (hhome.symm.trans heq)
  decide +kernel

/-- A repository that is also the directory of `CODEX_HOME` is mounted twice. -/
theorem not_nodup_destinations : ¬ ∀ (system : Host) (directory : OsPath) (host : PassthroughHost)
    (gitIdentity : GitIdentityPassthrough) (snapshot : PreflightSnapshot)
    (request : RuntimeLaunchRequest) (preparation : ContainerLaunchPreparation)
    (invocation : RuntimeInvocation),
    resolveWorkspaceIdentity system directory = .ok request.workspace →
    checkHostPrerequisitesWithSnapshot snapshot request.runtime request.policy.runMode =
      .ok preparation.preflight →
    ((launchRunSpec request preparation invocation (detectPassthrough host
      request.workspace.canonicalGitRoot gitIdentity)).create.mounts.map
        fun mount => normalizedDestination mount.destination).Nodup := by
  intro h
  have hresolve : resolveWorkspaceIdentity (hostAt ⟨"/home/alice/.codex"⟩)
      (.utf8 ⟨"/home/alice/.codex"⟩) = .ok (codexRequest ⟨"/home/alice/.codex"⟩).workspace := by
    decide +kernel
  obtain ⟨preflight, hreport⟩ := exists_codexReport "/home/alice/.codex" "/home/alice/.codex"
    (by decide +kernel)
  have hnodup := h _ _ signingHost .host _ (codexRequest ⟨"/home/alice/.codex"⟩)
    ⟨preflight, .none, none⟩ ⟨[], ⟨"/home/alice/.codex"⟩⟩ hresolve hreport
  have hhome : codexHome (codexHomeSnapshot "/home/alice/.codex") .codex .managedSession =
      some ⟨"/home/alice/.codex"⟩ := by decide +kernel
  rw [← Function.comp_def normalizedDestination, ← List.map_map] at hnodup
  have hhost := ((destinations_launchRunSpec hreport).map normalizedDestination).nodup_iff.1 hnodup
  change (List.map normalizedDestination ("/home/alice/.codex" :: (codexHome (codexHomeSnapshot
    "/home/alice/.codex") .codex .managedSession).toList.map (·.asStr) ++ _)).Nodup at hhost
  rw [hhome] at hhost
  exact (List.nodup_cons.1 hhost).1 List.mem_cons_self

end Agentbox.Commands.MountDestinations
