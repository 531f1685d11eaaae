import Agentbox.Lib.Requirements
import Agentbox.SshSigning.HostPassthrough

/-! # What a launch requires of the host

The requirements of a preflight as a list, in the order in which they are looked at, and the report
of a host that meets them. A launch with the report mounts the state directories of the runtime
where the runtime looks for them in the container. -/

namespace Agentbox.Preflight.HostRequirements

open Agentbox.Base.Text Agentbox.Base.Path Agentbox.Base.Errors Agentbox.Commands.ContainerLaunch
  Agentbox.Commands.HostCalls Agentbox.Files.Snapshot Agentbox.Lib.Entries
  Agentbox.Lib.NumberedEntries Agentbox.Lib.Requirements Agentbox.Lib.Resolution
  Agentbox.Metadata.Labels Agentbox.Preflight.Check Agentbox.Preflight.Path
  Agentbox.Preflight.Snapshot Agentbox.Runtime.HostState Agentbox.Runtime.Kind
  Agentbox.Runtime.Spec Agentbox.SshSigning.GitConfig Agentbox.SshSigning.HostPassthrough
  Agentbox.SshSigning Agentbox.SshSigning.SigningKey

/-! ### The requirements -/

section
variable (host : PreflightHost) (runtime : RuntimeKind) (runMode : RuntimeRunMode)

/-- The fixtures of the tests stand for everything but Podman. -/
def hostToolRequirements : List (Except Error Unit) :=
  [require (host.testFixturesEnabled || host.commandExists "git")
      (.msg "`git` was not found on PATH; install `git` or add it to PATH"),
    require (host.commandExists "podman")
      (.msg "`podman` was not found on PATH; install `podman` or add it to PATH")]

def nixDaemonRequirements : List (Except Error Unit) :=
  [require (host.testFixturesEnabled || host.unixSocketExists ⟨NIX_DAEMON_SOCKET_PATH⟩)
      (.msg ("Missing host nix-daemon socket at: " ++ NIX_DAEMON_SOCKET_PATH ++
        ". Mount /nix:/nix:ro."))]

def nixClientRequirements : List (Except Error Unit) :=
  [require (resolveNixClientSource host).isSome
      (.msg ("`nix` was not found on PATH; install Nix or add the host `nix` " ++
        "client to PATH"))]

/-- A `nix.custom.conf` may be absent, but not lead to nothing that can be read. -/
def nixConfigRequirements : List (Except Error Unit) :=
  [require (host.testFixturesEnabled || symlinkOrPathExists host.files ⟨ETC_NIX_DESTINATION⟩)
      (.msg ("Missing /etc/nix host mount. Mount /etc/nix:/etc/nix:ro so the wrapper " ++
        "inherits the host config and registry.")),
    require (host.testFixturesEnabled ||
        host.fileIsReadable (lookupComponents ⟨"/etc/nix/nix.conf"⟩))
      (.msg ("Missing readable host Nix config: /etc/nix/nix.conf. " ++
        "Mount /etc/nix:/etc/nix:ro.")),
    require (!symlinkOrPathExists host.files ⟨NIX_CUSTOM_CONF_PATH⟩ ||
        host.fileIsReadable (resolvePath host.files ⟨NIX_CUSTOM_CONF_PATH⟩))
      (.msg ("Missing readable target for /etc/nix/nix.custom.conf. Mount " ++
        "/etc/static/nix:/etc/static/nix:ro when /etc/nix points there."))]

/-- A state directory is located, has a place in the container, and can be used. -/
def stateRequirements (spec : RuntimeHostStateMount) : List (Except Error Unit) :=
  match spec.source.resolve host.pathFromEnvironment with
  | .error error => [.error (.msg error.display)]
  | .ok ⟨none, _⟩ => [.error (missingSourceError runtime spec)]
  | .ok ⟨some source, variable_⟩ =>
    let status := host.pathStatus source
    [(spec.destination.resolve source variable_).map fun _ => (),
      require status.exists_ (missingDirectoryError runtime spec source),
      require status.isDirectory (notADirectoryError spec source),
      require (status.readable && status.writable && status.searchable)
        (inaccessibleDirectoryError spec source)]

def requirements : List (Except Error Unit) :=
  hostToolRequirements host ++ (nixDaemonRequirements host ++ (nixClientRequirements host ++
    (nixConfigRequirements host ++
      (hostStateMounts runtime runMode).flatMap (stateRequirements host runtime))))

/-! ### The report -/

/-- The mount of a state directory and the variable that goes with it. -/
def stateMount (spec : RuntimeHostStateMount) : Option (RuntimeMount × Option (String × String)) :=
  match spec.source.resolve host.pathFromEnvironment with
  | .ok ⟨some source, variable_⟩ =>
    (spec.destination.resolve source variable_).toOption.map fun destination =>
      ({ kind := .bind, source := source.asStr, destination },
        spec.containerEnvironmentFor source variable_)
  | _ => none

def stateReport (specs : List RuntimeHostStateMount) (preflight : RuntimeHostStatePreflight) :
    RuntimeHostStatePreflight :=
  let states := specs.filterMap (stateMount host)
  ⟨preflight.mounts ++ states.map Prod.fst,
    (states.filterMap Prod.snd).foldl (fun env e => env.insert e.1 e.2) preflight.environment⟩

def report : PreflightReport :=
  let state := stateReport host (hostStateMounts runtime runMode) ⟨[], ∅⟩
  ⟨hostNixMounts ((resolveNixClientSource host).getD ⟨""⟩)
      (pathReachesMountRoot host.files ⟨NIX_CUSTOM_CONF_PATH⟩ ⟨ETC_STATIC_NIX_DESTINATION⟩),
    state.mounts, state.environment⟩

end

section
variable {host : PreflightHost} {runtime : RuntimeKind} {runMode : RuntimeRunMode}

/-! ### One directory -/

theorem HostPathStatus.eq_of_all : ∀ {status : HostPathStatus}, status.exists_ = true →
    status.isDirectory = true → status.readable = true → status.writable = true →
      status.searchable = true → status = ⟨true, true, true, true, true⟩
  | ⟨_, _, _, _, _⟩, rfl, rfl, rfl, rfl, rfl => rfl

/-- The directory of a specification is there, for whoever runs the command. -/
def Usable (host : PreflightHost) (spec : RuntimeHostStateMount) (source : Utf8Path)
    (variable_ : Option String) (destination : String) : Prop :=
  spec.source.resolve host.pathFromEnvironment = .ok ⟨some source, variable_⟩ ∧
    spec.destination.resolve source variable_ = .ok destination ∧
    host.pathStatus source = ⟨true, true, true, true, true⟩

theorem stateRequirements_of_located {spec : RuntimeHostStateMount} {source : Utf8Path}
    {variable_ : Option String}
    (h : spec.source.resolve host.pathFromEnvironment = .ok ⟨some source, variable_⟩) :
    stateRequirements host runtime spec =
      [(spec.destination.resolve source variable_).map fun _ => (),
        require (host.pathStatus source).exists_ (missingDirectoryError runtime spec source),
        require (host.pathStatus source).isDirectory (notADirectoryError spec source),
        require ((host.pathStatus source).readable && (host.pathStatus source).writable &&
          (host.pathStatus source).searchable) (inaccessibleDirectoryError spec source)] := by
  rw [stateRequirements, h]

theorem usable_of_stateRequirements {spec : RuntimeHostStateMount}
    (h : inOrder (stateRequirements host runtime spec) = .ok ()) :
    ∃ source variable_ destination, Usable host spec source variable_ destination := by
  rw [inOrder_eq_ok] at h
  rcases hsource : spec.source.resolve host.pathFromEnvironment with e | ⟨_ | source, variable_⟩
  · rw [stateRequirements, hsource] at h
    exact absurd (h _ List.mem_cons_self) (by simp)
  · rw [stateRequirements, hsource] at h
    exact absurd (h _ List.mem_cons_self) (by simp)
  · rw [stateRequirements_of_located hsource] at h
    simp only [List.forall_mem_cons, require_eq_ok, Bool.and_eq_true] at h
    obtain ⟨hdestination, hexists, hdirectory, ⟨⟨hreadable, hwritable⟩, hsearchable⟩, -⟩ := h
    rcases hresolve : spec.destination.resolve source variable_ with e | destination
    · rw [hresolve] at hdestination
      cases hdestination
    · refine ⟨source, variable_, destination, hsource, hresolve, ?_⟩
      exact HostPathStatus.eq_of_all hexists hdirectory hreadable hwritable hsearchable

theorem stateMount_of_usable {spec : RuntimeHostStateMount} {source : Utf8Path}
    {variable_ : Option String} {destination : String}
    (h : Usable host spec source variable_ destination) :
    stateMount host spec = some ({ kind := .bind, source := source.asStr, destination },
      spec.containerEnvironmentFor source variable_) := by
  obtain ⟨hsource, hdestination, -⟩ := h
  simp only [stateMount, hsource, hdestination]
  rfl

theorem detectHostState_of_located {spec : RuntimeHostStateMount} {source : Option Utf8Path}
    {variable_ : Option String}
    (h : spec.source.resolve host.pathFromEnvironment = .ok ⟨source, variable_⟩) :
    detectHostState host spec = .detectWith host source variable_ := by
  rw [detectHostState, h]

/-- What is asked of a directory that has a place in the container. -/
theorem validate_of_status {spec : RuntimeHostStateMount} {source : Utf8Path}
    {variable_ : Option String} {destination : String} (status : HostPathStatus)
    (h : spec.destination.resolve source variable_ = .ok destination) :
    validate runtime spec ⟨some source, variable_, none, status.exists_, status.isDirectory,
        status.readable, status.writable, status.searchable⟩ =
      (inOrder [require status.exists_ (missingDirectoryError runtime spec source),
        require status.isDirectory (notADirectoryError spec source),
        require (status.readable && status.writable && status.searchable)
          (inaccessibleDirectoryError spec source)]).map fun _ =>
        ({ kind := .bind, source := source.asStr, destination },
          spec.containerEnvironmentFor source variable_) := by
  obtain ⟨_ | _, _ | _, _ | _, _ | _, _ | _⟩ := status <;>
    simp only [validate, h] <;> rfl

theorem validate_of_usable {spec : RuntimeHostStateMount} {source : Utf8Path}
    {variable_ : Option String} {destination : String}
    (h : Usable host spec source variable_ destination) :
    validate runtime spec (detectHostState host spec) =
      .ok ({ kind := .bind, source := source.asStr, destination },
        spec.containerEnvironmentFor source variable_) := by
  obtain ⟨hsource, hdestination, hstatus⟩ := h
  rw [detectHostState_of_located hsource]
  refine (validate_of_status (host.pathStatus source) hdestination).trans ?_
  rw [hstatus]
  rfl

theorem validate_of_error {spec : RuntimeHostStateMount} {e : Error}
    (h : inOrder (stateRequirements host runtime spec) = .error e) :
    validate runtime spec (detectHostState host spec) = .error e := by
  rcases hsource : spec.source.resolve host.pathFromEnvironment with e' | ⟨_ | source, variable_⟩
  · rw [stateRequirements, hsource] at h
    rw [detectHostState, hsource, ← Except.error.inj h]
    rfl
  · rw [stateRequirements, hsource] at h
    rw [detectHostState_of_located hsource, ← Except.error.inj h]
    rfl
  · rw [stateRequirements_of_located hsource] at h
    rw [detectHostState_of_located hsource]
    rcases hdestination : spec.destination.resolve source variable_ with e' | destination
    · rw [hdestination] at h
      rw [validate, ← Except.error.inj h]
      simp only [HostDirectoryPreflightSnapshot.detectWith, hdestination]
      rfl
    · rw [hdestination] at h
      refine (validate_of_status (host.pathStatus source) hdestination).trans ?_
      exact congrArg (Except.map _) h

/-! ### All directories -/

/-- The snapshot knows the state of each of the directories. -/
def Knows (host : PreflightHost) (snapshot : PreflightSnapshot)
    (specs : List RuntimeHostStateMount) : Prop :=
  ∀ spec ∈ specs, snapshot.host.runtimeState[spec.snapshotKey]? = some (detectHostState host spec)

/-- No two directories of a runtime have one key. -/
theorem knows_detect :
    Knows host (.detect host runtime runMode) (hostStateMounts runtime runMode) := by
  have hkeys : ((hostStateMounts runtime runMode).map (·.snapshotKey)).Nodup := by
    cases runtime <;> cases runMode <;> decide
  intro spec hspec
  refine holds_ofList ?_ (spec.snapshotKey, detectHostState host spec)
    (List.mem_map.2 ⟨spec, hspec, rfl⟩)
  rw [List.map_map]
  exact hkeys

variable {snapshot : PreflightSnapshot}

theorem runtimeMountsFor_cons {spec : RuntimeHostStateMount} {specs : List RuntimeHostStateMount}
    (h : Knows host snapshot (spec :: specs)) (preflight : RuntimeHostStatePreflight) :
    runtimeMountsFor snapshot runtime (spec :: specs) preflight =
      (validate runtime spec (detectHostState host spec)).bind fun m =>
        runtimeMountsFor snapshot runtime specs ⟨preflight.mounts ++ [m.1],
          m.2.elim preflight.environment fun e => preflight.environment.insert e.1 e.2⟩ := by
  rw [runtimeMountsFor, hostStateSnapshot, h spec List.mem_cons_self]
  rfl

theorem stateReport_cons {spec : RuntimeHostStateMount} {specs : List RuntimeHostStateMount}
    {m : RuntimeMount × Option (String × String)} (h : stateMount host spec = some m)
    (preflight : RuntimeHostStatePreflight) :
    stateReport host (spec :: specs) preflight = stateReport host specs
      ⟨preflight.mounts ++ [m.1],
        m.2.elim preflight.environment fun e => preflight.environment.insert e.1 e.2⟩ := by
  obtain ⟨mount, _ | entry⟩ := m <;>
    simp [stateReport, h]

/-- The directories are looked at one after the other. -/
theorem runtimeMountsFor_eq : ∀ (specs : List RuntimeHostStateMount)
    (preflight : RuntimeHostStatePreflight), Knows host snapshot specs →
      runtimeMountsFor snapshot runtime specs preflight =
        (inOrder (specs.flatMap (stateRequirements host runtime))).map fun _ =>
          stateReport host specs preflight
  | [], preflight, _ => by
    change _ = Except.ok _
    rw [runtimeMountsFor, stateReport, List.filterMap_nil, List.map_nil, List.append_nil]
    rfl
  | spec :: specs, preflight, h => by
    have hrest := fun preflight => runtimeMountsFor_eq specs preflight fun spec' hspec' =>
      h spec' (List.mem_cons_of_mem _ hspec')
    rw [runtimeMountsFor_cons h, List.flatMap_cons, inOrder_append]
    rcases hspec : inOrder (stateRequirements host runtime spec) with e | ⟨⟩
    · rw [validate_of_error hspec]
      rfl
    · obtain ⟨source, variable_, destination, husable⟩ := usable_of_stateRequirements hspec
      rw [validate_of_usable husable, stateReport_cons (stateMount_of_usable husable)]
      exact hrest _

/-! ### The check -/

theorem validateHostTools_detect :
    validateHostTools (.detect host runtime runMode) = inOrder (hostToolRequirements host) := by
  change (if !(host.testFixturesEnabled || host.commandExists "git") then _ else
    if !host.commandExists "podman" then _ else _) = _
  unfold hostToolRequirements
  rcases host.testFixturesEnabled || host.commandExists "git" <;>
    rcases host.commandExists "podman" <;> rfl

theorem validateNixDaemon_detect :
    validateNixDaemon (.detect host runtime runMode) = inOrder (nixDaemonRequirements host) := by
  change (if host.testFixturesEnabled || host.unixSocketExists ⟨NIX_DAEMON_SOCKET_PATH⟩ then _
    else _) = _
  unfold nixDaemonRequirements
  rcases host.testFixturesEnabled || host.unixSocketExists ⟨NIX_DAEMON_SOCKET_PATH⟩ <;> rfl

theorem nixClientSource_detect :
    nixClientSource (.detect host runtime runMode) =
      (inOrder (nixClientRequirements host)).map fun _ =>
        (resolveNixClientSource host).getD ⟨""⟩ := by
  have hclient : (PreflightSnapshot.detect host runtime runMode).nix.clientSource =
      resolveNixClientSource host := rfl
  rw [nixClientSource, hclient, nixClientRequirements]
  rcases resolveNixClientSource host with _ | source <;> rfl

theorem validateNixConfig_detect :
    validateNixConfig (.detect host runtime runMode) = inOrder (nixConfigRequirements host) := by
  have hconfig : (PreflightSnapshot.detect host runtime runMode).nix.config = .detect host := rfl
  rw [validateNixConfig, hconfig]
  unfold nixConfigRequirements NixConfigPreflightSnapshot.detect
    NixCustomConfPreflightSnapshot.detect
  rcases host.testFixturesEnabled || symlinkOrPathExists host.files ⟨ETC_NIX_DESTINATION⟩ <;>
    rcases host.testFixturesEnabled ||
      host.fileIsReadable (lookupComponents ⟨"/etc/nix/nix.conf"⟩) <;>
    rcases symlinkOrPathExists host.files ⟨NIX_CUSTOM_CONF_PATH⟩ <;>
    rcases host.fileIsReadable (resolvePath host.files ⟨NIX_CUSTOM_CONF_PATH⟩) <;> rfl

/-- The check goes through the requirements in their order and ends in the report. -/
theorem checkHostPrerequisites_detect :
    checkHostPrerequisitesWithSnapshot (.detect host runtime runMode) runtime runMode =
      (inOrder (requirements host runtime runMode)).map fun _ => report host runtime runMode := by
  have hknows : Knows host (.detect host runtime runMode) (hostStateMounts runtime runMode) :=
    knows_detect
  have hmounts : runtimeMounts (.detect host runtime runMode) runtime runMode = _ :=
    runtimeMountsFor_eq (hostStateMounts runtime runMode) ⟨[], ∅⟩ hknows
  rw [checkHostPrerequisitesWithSnapshot, validateHostTools_detect, validateNixDaemon_detect,
    nixClientSource_detect, validateNixConfig_detect, hmounts, requirements]
  simp only [inOrder_append]
  rcases inOrder (hostToolRequirements host) with e | ⟨⟩
  · rfl
  rcases inOrder (nixDaemonRequirements host) with e | ⟨⟩
  · rfl
  rcases inOrder (nixClientRequirements host) with e | ⟨⟩
  · rfl
  rcases inOrder (nixConfigRequirements host) with e | ⟨⟩
  · rfl
  rcases inOrder ((hostStateMounts runtime runMode).flatMap (stateRequirements host runtime)) with
    e | ⟨⟩ <;> rfl

/-! ### The container -/

/-- The home directory that the image sets. -/
def IMAGE_HOME : String := "/home/user"

/-- A variable in a container that is started with the environment. -/
def containerEnvironment (env : LabelMap) (name : String) : Option OsPath :=
  ((env[name]?).or (if name = "HOME" then some IMAGE_HOME else none)).map fun value => .utf8 ⟨value⟩

/-- The variables that a runtime looks for its state by. -/
def STATE_VARIABLES : List String := ["HOME", CODEX_HOME_ENV, "XDG_CONFIG_HOME", "XDG_DATA_HOME"]

theorem lacks_empty {ks : List String} : Lacks (∅ : LabelMap) ks :=
  fun _ _ => Std.ExtTreeMap.getElem?_empty

theorem lacks_appendAgentboxGitIdentityEnv : ∀ (entries : List (String × String)) {env : LabelMap},
    Lacks env STATE_VARIABLES → Lacks (appendAgentboxGitIdentityEnv env entries) STATE_VARIABLES
  | [], _, h => h
  | e :: entries, env, h => by
    rw [appendAgentboxGitIdentityEnv, List.foldl_cons]
    refine lacks_appendAgentboxGitIdentityEnv entries ?_
    split_ifs
    · exact h.insert (by decide)
    · exact h.insert (by decide)
    · exact h

theorem lacks_appendGitConfigEnv {env : LabelMap} (h : Lacks env STATE_VARIABLES)
    (entries : List (String × String)) :
    Lacks (appendGitConfigEnv env entries) STATE_VARIABLES := by
  have hother : ∀ name ∈ STATE_VARIABLES, startsWith name "GIT_CONFIG_" = false := by decide
  intro name hname
  have hunused : ¬ gitConfigVariables.Uses name := fun huses =>
    Bool.false_ne_true ((hother name hname).symm.trans (startsWith_of_uses huses))
  rw [appendGitConfigEnv_eq, Numbering.getElem?_append hunused]
  exact h name hname

/-- No passthrough sets a variable that a runtime looks for its state by. -/
theorem lacks_detectPassthrough (passed : PassthroughHost) (gitRoot : Utf8Path)
    (gitIdentity : GitIdentityPassthrough) :
    Lacks (HostPassthrough.detectPassthrough passed gitRoot gitIdentity).environment
      STATE_VARIABLES := by
  have hwayland : Lacks (waylandPassthrough passed).environment STATE_VARIABLES := by
    rw [waylandPassthrough]
    rcases waylandSocket passed with _ | socket
    · exact lacks_empty
    · exact lacks_ofList (by decide)
  have hknown : Lacks (knownHostsPassthrough passed gitRoot).environment STATE_VARIABLES := by
    rw [knownHostsPassthrough]
    rcases passed.knownHostsFile gitRoot with _ | source
    · exact lacks_empty
    · exact lacks_ofList (by decide)
  have hidentity := lacks_appendAgentboxGitIdentityEnv
    (gitIdentityEntries passed gitRoot gitIdentity) lacks_empty
  have hsigning : Lacks (detectCommitSigning passed gitRoot gitIdentity).passthrough.environment
      STATE_VARIABLES := by
    rw [detectCommitSigning]
    rcases detectHostAgentSocket passed with _ | socket
    · exact lacks_appendGitConfigEnv hidentity _
    · exact lacks_appendGitConfigEnv (hidentity.insert (by decide)) _
  refine (hwayland.union hsigning).union ?_
  split_ifs
  · exact hknown
  · exact lacks_empty

/-! ### Where the runtime looks -/

variable {env : LabelMap} {spec : RuntimeHostStateMount} {source : Utf8Path}
  {variable_ : Option String} {destination : String}

theorem containerEnvironment_home (h : env["HOME"]? = none) :
    containerEnvironment env "HOME" = some (.utf8 ⟨IMAGE_HOME⟩) := by
  rw [containerEnvironment, h]
  rfl

theorem containerEnvironment_of_ne {name : String} (h : name ≠ "HOME") :
    containerEnvironment env name = (env[name]?).map fun value => .utf8 ⟨value⟩ := by
  rw [containerEnvironment, if_neg h, Option.or_none]

theorem resolveHomeSource_container (h : env["HOME"]? = none) (components : List String) :
    resolveHomeSource (containerEnvironment env) components =
      utf8Join (.utf8 ⟨IMAGE_HOME⟩) components := by
  rw [resolveHomeSource, containerEnvironment_home h]
  rfl

/-- A directory comes from the variable, which is not empty, or from the home directory. -/
theorem environmentOrHome_located {name : String} {components : List String}
    {environment : String → Option OsPath}
    (h : (RuntimeHostStateSource.environmentOrHome name components).resolve environment =
      .ok ⟨some source, variable_⟩) :
    variable_ = some name ∧ source.asStr ≠ "" ∨ variable_ = none := by
  rw [RuntimeHostStateSource.resolve, environmentSource] at h
  have hvariable : ∀ {resolution : RuntimeHostStateSourceResolution},
      Except.ok (ε := Error) resolution = .ok ⟨some source, variable_⟩ →
        resolution.sourceEnvironmentVariable = variable_ := fun heq =>
    congrArg RuntimeHostStateSourceResolution.sourceEnvironmentVariable (Except.ok.inj heq)
  rcases hname : environment name with _ | ⟨path⟩ | ⟨_, _⟩
  · rw [hname] at h
    exact .inr (hvariable h).symm
  · rw [hname] at h
    by_cases hempty : path.asStr = ""
    · simp only [if_pos hempty] at h
      exact .inr (hvariable h).symm
    · simp only [if_neg hempty] at h
      cases h
      exact .inl ⟨rfl, hempty⟩
  · rw [hname] at h
    cases h

/-- The environment that a single directory adds. -/
theorem environment_of_single (h : Usable host spec source variable_ destination) :
    (stateReport host [spec] ⟨[], ∅⟩).environment =
      (spec.containerEnvironmentFor source variable_).elim ∅ fun e =>
        (∅ : LabelMap).insert e.1 e.2 := by
  rw [stateReport_cons (stateMount_of_usable h)]
  rfl

/-- Codex finds a directory that `CODEX_HOME` names under its own path, by that variable. -/
theorem codex_looks (h : Usable host spec source variable_ destination)
    (hspec : spec ∈ Codex.SERVER_HOST_STATE_MOUNTS) (hhome : env["HOME"]? = none)
    (henv : env[CODEX_HOME_ENV]? =
      (stateReport host Codex.SERVER_HOST_STATE_MOUNTS ⟨[], ∅⟩).environment[CODEX_HOME_ENV]?) :
    spec.source.resolve (containerEnvironment env) = .ok ⟨some ⟨destination⟩, variable_⟩ := by
  obtain rfl := List.mem_singleton.1 hspec
  rw [Codex.SERVER_HOST_STATE_MOUNTS, environment_of_single h] at henv
  obtain ⟨hsource, hdestination, -⟩ := h
  have hne : CODEX_HOME_ENV ≠ "HOME" := by decide
  obtain ⟨rfl, hnonempty⟩ | rfl := environmentOrHome_located hsource
  · have hvariable : containerEnvironment env CODEX_HOME_ENV = some (.utf8 source) := by
      rw [containerEnvironment_of_ne hne, henv]
      exact congrArg (Option.map _) Std.ExtTreeMap.getElem?_insert_self
    have hpath : source.asStr = destination := by
      rw [RuntimeHostStateDestination.resolve, if_pos rfl] at hdestination
      split_ifs at hdestination
      exact Except.ok.inj hdestination
    rw [RuntimeHostStateSource.resolve, environmentSource, hvariable]
    simp only [if_neg hnonempty]
    rw [← hpath]
  · have hvariable : containerEnvironment env CODEX_HOME_ENV = none := by
      rw [containerEnvironment_of_ne hne, henv]
      exact congrArg (Option.map _) Std.ExtTreeMap.getElem?_empty
    have hfallback : CODEX_CONFIG_DESTINATION = destination := Except.ok.inj hdestination
    rw [RuntimeHostStateSource.resolve, environmentSource, hvariable]
    simp only
    rw [resolveHomeSource_container hhome, ← hfallback]
    rfl

/-- A directory whose place in the container is the one below the home directory. -/
def IsBelowHome (spec : RuntimeHostStateMount) : Prop :=
  ∃ components place, spec.destination = .fixed place ∧
    utf8Join (.utf8 ⟨IMAGE_HOME⟩) components = some ⟨place⟩ ∧
    (spec.source = .homeOnly components ∨ ∃ name xdg, name ≠ "HOME" ∧ name ∈ STATE_VARIABLES ∧
      name ≠ CODEX_HOME_ENV ∧ spec.source = .xdgOrHome name xdg components)

theorem isBelowHome_codex : ∀ spec ∈ Codex.FOREGROUND_HOST_STATE_MOUNTS, IsBelowHome spec :=
  List.forall_mem_singleton.2 ⟨[".codex"], _, rfl, rfl, .inl rfl⟩

theorem isBelowHome_opencode : ∀ spec ∈ Opencode.HOST_STATE_MOUNTS, IsBelowHome spec :=
  List.forall_mem_cons.2
    ⟨⟨[".config", "opencode"], _, rfl, rfl, .inr ⟨_, _, by decide, by decide, by decide, rfl⟩⟩,
      List.forall_mem_singleton.2
        ⟨[".local", "share", "opencode"], _, rfl, rfl,
          .inr ⟨_, _, by decide, by decide, by decide, rfl⟩⟩⟩

theorem home_looks (hbelow : IsBelowHome spec) (h : Usable host spec source variable_ destination)
    (henv : ∀ name ∈ STATE_VARIABLES, name ≠ CODEX_HOME_ENV → env[name]? = none) :
    spec.source.resolve (containerEnvironment env) = .ok ⟨some ⟨destination⟩, variable_⟩ := by
  obtain ⟨components, place, hplace, hjoin, hspec⟩ := hbelow
  obtain ⟨hsource, hdestination, -⟩ := h
  have hhome := henv "HOME" (by decide) (by decide)
  have hresolved : resolveHomeSource (containerEnvironment env) components =
      some ⟨destination⟩ := by
    rw [hplace] at hdestination
    rw [resolveHomeSource_container hhome, hjoin, Except.ok.inj hdestination]
  obtain hsource' | ⟨name, xdg, hne, hname, hcodex, hsource'⟩ := hspec
  · rw [hsource'] at hsource ⊢
    obtain rfl := congrArg RuntimeHostStateSourceResolution.sourceEnvironmentVariable
      (Except.ok.inj hsource)
    rw [RuntimeHostStateSource.resolve, hresolved]
  · rw [hsource'] at hsource ⊢
    obtain rfl := congrArg RuntimeHostStateSourceResolution.sourceEnvironmentVariable
      (Except.ok.inj hsource)
    rw [RuntimeHostStateSource.resolve, hresolved, containerEnvironment_of_ne hne,
      henv name hname hcodex]
    rfl

theorem looks_of_usable (hspec : spec ∈ hostStateMounts runtime runMode)
    (h : Usable host spec source variable_ destination)
    (hother : ∀ name ∈ STATE_VARIABLES, name ≠ CODEX_HOME_ENV → env[name]? = none)
    (hcodex : env[CODEX_HOME_ENV]? =
      (report host runtime runMode).runtimeEnvironment[CODEX_HOME_ENV]?) :
    spec.source.resolve (containerEnvironment env) = .ok ⟨some ⟨destination⟩, variable_⟩ := by
  have hhome : env["HOME"]? = none := hother "HOME" (by decide) (by decide)
  cases runtime with
  | opencode => exact home_looks (isBelowHome_opencode spec hspec) h hother
  | codex =>
    cases runMode with
    | managedSession => exact codex_looks h hspec hhome hcodex
    | transientServer => exact codex_looks h hspec hhome hcodex
    | foreground => exact home_looks (isBelowHome_codex spec hspec) h hother

end

/-! ### The launch -/

/-- The directory that the rule of a specification finds on the host is there, and it is mounted,
for reading and writing, at the place that the same rule finds in the container. -/
def FindsState (host : PreflightHost) (launched : RuntimeCreateSpec)
    (spec : RuntimeHostStateMount) : Prop :=
  ∃ source variable_ destination, Usable host spec source variable_ destination ∧
    { kind := .bind, source := source.asStr, destination } ∈ launched.mounts ∧
    spec.source.resolve (containerEnvironment launched.defaultEnv) =
      .ok ⟨some ⟨destination⟩, variable_⟩

section
variable {host : PreflightHost} {request : RuntimeLaunchRequest}
  {preparation : ContainerLaunchPreparation} {invocation : RuntimeInvocation}
  {passed : PassthroughHost} {gitRoot : Utf8Path} {gitIdentity : GitIdentityPassthrough}

theorem mem_runtimeMounts {runtime : RuntimeKind} {runMode : RuntimeRunMode}
    {spec : RuntimeHostStateMount} {source : Utf8Path} {variable_ : Option String}
    {destination : String} (hspec : spec ∈ hostStateMounts runtime runMode)
    (h : Usable host spec source variable_ destination) :
    ({ kind := .bind, source := source.asStr, destination } : RuntimeMount) ∈
      (report host runtime runMode).runtimeMounts :=
  List.mem_append_right _ (List.mem_map.2
    ⟨_, List.mem_filterMap.2 ⟨spec, hspec, stateMount_of_usable h⟩, rfl⟩)

/-- What a launch with the report sets of the variables that the runtime looks by. -/
theorem getElem?_launched {name : String} (hname : name ∈ STATE_VARIABLES) :
    (launchRunSpec request preparation invocation
      (HostPassthrough.detectPassthrough passed gitRoot gitIdentity)).create.defaultEnv[name]? =
        preparation.preflight.runtimeEnvironment[name]? := by
  have hdefault : Lacks (defaultEnv request.runtime) STATE_VARIABLES := by
    cases request.runtime with
    | opencode => exact lacks_ofList (by decide)
    | codex => exact lacks_empty
  rw [defaultEnv_launchRunSpec, Std.ExtTreeMap.getElem?_union, Std.ExtTreeMap.getElem?_union,
    lacks_detectPassthrough _ _ _ name hname, hdefault name hname, Option.none_or, Option.or_none]

end

/-- **A preflight is exact.** The check passes if and only if every requirement is met, with the
report of the host; it fails with the error of the first requirement that is not met; and whatever
is launched with its report finds each state directory of the host where it looks for it. -/
theorem preflight_exact (host : PreflightHost) (request : RuntimeLaunchRequest) :
    let runtime := request.runtime
    let runMode := request.policy.runMode
    let checked :=
      checkHostPrerequisitesWithSnapshot (.detect host runtime runMode) runtime runMode
    (∀ r, checked = .ok r ↔
      (∀ x ∈ requirements host runtime runMode, x = .ok ()) ∧ r = report host runtime runMode) ∧
    (∀ e, checked = .error e ↔ ∃ before after,
      requirements host runtime runMode = before ++ .error e :: after ∧
        ∀ x ∈ before, x = .ok ()) ∧
    ∀ (preparation : ContainerLaunchPreparation) (invocation : RuntimeInvocation)
      (passed : PassthroughHost) (gitRoot : Utf8Path) (gitIdentity : GitIdentityPassthrough),
        checked = .ok preparation.preflight → ∀ spec ∈ hostStateMounts runtime runMode,
          FindsState host (launchRunSpec request preparation invocation
            (HostPassthrough.detectPassthrough passed gitRoot gitIdentity)).create spec := by
  intro runtime runMode checked
  have hchecked : checked = (inOrder (requirements host runtime runMode)).map fun _ =>
      report host runtime runMode := checkHostPrerequisites_detect
  refine ⟨fun r => by rw [hchecked, inOrder_map_eq_ok],
    fun e => by rw [hchecked, inOrder_map_eq_error], ?_⟩
  intro preparation invocation passed gitRoot gitIdentity h spec hspec
  obtain ⟨hmet, hreport⟩ := inOrder_map_eq_ok.1 (hchecked ▸ h)
  have hstate : inOrder (stateRequirements host runtime spec) = .ok () := by
    refine inOrder_eq_ok.2 fun x hx => hmet x ?_
    simp only [requirements, List.mem_append]
    exact .inr (.inr (.inr (.inr (List.mem_flatMap.2 ⟨spec, hspec, hx⟩))))
  obtain ⟨source, variable_, destination, husable⟩ := usable_of_stateRequirements hstate
  refine ⟨source, variable_, destination, husable, ?_, ?_⟩
  · rw [mounts_launchRunSpec, hreport]
    refine List.mem_append_left _ (List.mem_cons_of_mem _ (List.mem_cons_of_mem _ ?_))
    exact List.mem_append_right _ (mem_runtimeMounts hspec husable)
  · refine looks_of_usable hspec husable (fun name hname hne => ?_) ?_
    · rw [getElem?_launched hname]
      exact getElem?_runtimeEnvironment h hne
    · rw [getElem?_launched (by decide), hreport]

/-- A host with everything in its place, and `CODEX_HOME` set. -/
def demoHost : PreflightHost where
  environment name :=
    if name = "HOME" then some (.utf8 ⟨"/home/alice"⟩)
    else if name = CODEX_HOME_ENV then some (.utf8 ⟨"/data/codex"⟩) else none
  which program := some (.utf8 ⟨"/usr/bin/" ++ program⟩)
  unixSocketExists _ := true
  fileIsReadable names := names = [.rootDir, .normal "etc", .normal "nix", .normal "nix.conf"]
  pathStatus path :=
    if path.asStr = "/data/codex" then ⟨true, true, true, true, true⟩ else {}
  files :=
    { entries := [("etc", .directory [("nix", .directory [("nix.conf", .file)])])]
      currentDir := []
      maxSymlinks := 40 }

/-- The place in the container is the one on the host, and Codex is told of it. -/
theorem preflight_exact_demo :
    ∀ spec ∈ Codex.SERVER_HOST_STATE_MOUNTS, FindsState demoHost
      (launchRunSpec (boxRequest .codex) ⟨report demoHost .codex .managedSession, .none, none⟩
        ⟨[], ⟨"/src/box"⟩⟩
        (HostPassthrough.detectPassthrough signingHost ⟨"/src/box"⟩ .host)).create spec := by
  have hmet : inOrder (requirements demoHost .codex .managedSession) = .ok () := by
    decide +kernel
  obtain ⟨hok, -, hlaunch⟩ := preflight_exact demoHost (boxRequest .codex)
  exact hlaunch ⟨report demoHost .codex .managedSession, .none, none⟩ ⟨[], ⟨"/src/box"⟩⟩ signingHost
    ⟨"/src/box"⟩ .host ((hok _).2 ⟨inOrder_eq_ok.1 hmet, rfl⟩)

end Agentbox.Preflight.HostRequirements
