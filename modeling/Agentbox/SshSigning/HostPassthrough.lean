import Agentbox.Commands.ContainerLaunch
import Agentbox.Preflight.Check
import Agentbox.SshSigning.GitConfig

/-! # Passthroughs

What a launch adds for the Wayland socket, Git's excludes file, the SSH agent with the configuration
of commit signing, and the known hosts: `wayland.rs` and `ssh_signing`. Warnings are left out. -/

namespace Agentbox.SshSigning.HostPassthrough

open Agentbox.Base.Text Agentbox.Base.Path Agentbox.Base.Errors Agentbox.Files.Snapshot
  Agentbox.Commands.ContainerLaunch Agentbox.Commands.HostCalls Agentbox.Lib.Entries
  Agentbox.Lib.NumberedEntries Agentbox.Metadata.Labels Agentbox.Preflight.Check
  Agentbox.Preflight.Snapshot Agentbox.Runtime.HostState Agentbox.Runtime.Kind
  Agentbox.Runtime.Spec Agentbox.SshSigning.SigningKey Agentbox.SshSigning.GitConfig Agentbox.Workspace.Identity

def CONTAINER_WAYLAND_DISPLAY : String := "/run/agentbox/wayland.sock"
def CONTAINER_GIT_EXCLUDES_FILE : String := "/run/agentbox/git-ignore"
def CONTAINER_SSH_AUTH_SOCK : String := "/run/agentbox/ssh-agent.sock"
def CONTAINER_KNOWN_HOSTS : String := "/run/agentbox/known_hosts"

def HOST_WAYLAND_DISPLAY_ENV : String := "WAYLAND_DISPLAY"
def HOST_XDG_RUNTIME_DIR_ENV : String := "XDG_RUNTIME_DIR"
def HOST_SSH_AUTH_SOCK_ENV : String := "SSH_AUTH_SOCK"
def GIT_SSH_COMMAND_ENV : String := "GIT_SSH_COMMAND"
def GIT_SSH_COMMAND : String :=
  "ssh -o UserKnownHostsFile=/run/agentbox/known_hosts -o StrictHostKeyChecking=yes"
def GIT_EXCLUDES_FILE_KEY : String := "core.excludesFile"

inductive GitIdentityPassthrough
  | host
  | codexExec
  deriving DecidableEq, Repr

section
variable (host : PassthroughHost)

/-- The value of a variable that has to be a path: neither empty nor other than UTF-8. -/
def pathVariable (name : String) : Option Utf8Path :=
  match host.environment name with
  | some (.utf8 path) => if path.asStr = "" then none else some path
  | _ => none

/-! ### Wayland -/

def waylandSocket : Option Utf8Path :=
  (pathVariable host HOST_WAYLAND_DISPLAY_ENV).bind fun display =>
    let socket : Option Utf8Path :=
      if display.isAbsolute then some display
      else ((pathVariable host HOST_XDG_RUNTIME_DIR_ENV).filter (·.isAbsolute)).map (·.join display)
    socket.filter host.connectableUnixSocket

def waylandPassthrough : Passthrough :=
  match waylandSocket host with
  | some socket => ⟨[{ kind := .bind, source := socket.asStr, destination :=
      CONTAINER_WAYLAND_DISPLAY }], .ofList [(HOST_WAYLAND_DISPLAY_ENV, CONTAINER_WAYLAND_DISPLAY)]⟩
  | none => ⟨[], ∅⟩

/-! ### The excludes file -/

structure GitExcludesFilePassthrough where
  mount : Option RuntimeMount
  gitConfigEntries : List (String × String)

def resolveConfiguredPath (gitRoot : Utf8Path) (value : String) : Utf8Path :=
  if (⟨value⟩ : Utf8Path).isAbsolute then ⟨value⟩ else gitRoot.join ⟨value⟩

/-- A variable that is empty counts as an absent one, and one that is not UTF-8 ends the search. -/
def defaultExcludesFile : Option Utf8Path :=
  match host.environment "XDG_CONFIG_HOME" with
  | some (.nonUtf8 _ _) => none
  | xdg =>
    match xdg.filter (· ≠ .utf8 ⟨""⟩) with
    | some (.utf8 dir) => some ((dir.join ⟨"git"⟩).join ⟨"ignore"⟩)
    | _ => (pathVariable host "HOME").map fun home =>
        ((home.join ⟨".config"⟩).join ⟨"git"⟩).join ⟨"ignore"⟩

def excludesSourcePath (gitRoot : Utf8Path) : Option Utf8Path :=
  match host.gitConfigPath gitRoot GIT_EXCLUDES_FILE_KEY with
  | .ok (some value) => if value = "" then none else some (resolveConfiguredPath gitRoot value)
  | .ok none => defaultExcludesFile host
  | .error _ => none

def readableRegularFile (path : Utf8Path) : Bool := host.isFile path && host.canOpen path

def gitExcludes (gitRoot : Utf8Path) : GitExcludesFilePassthrough :=
  match (excludesSourcePath host gitRoot).filter (readableRegularFile host) with
  | some source => ⟨some ⟨.bind, source.asStr, CONTAINER_GIT_EXCLUDES_FILE, true⟩,
      [(GIT_EXCLUDES_FILE_KEY, CONTAINER_GIT_EXCLUDES_FILE)]⟩
  | none => ⟨none, []⟩

/-! ### Commit signing -/

def detectHostAgentSocket : Option Utf8Path :=
  (pathVariable host HOST_SSH_AUTH_SOCK_ENV).filter host.connectableUnixSocket

structure SshCommitSigningDetection where
  passthrough : Passthrough
  hostAgentAvailable : Bool

def gitIdentityEntries (gitRoot : Utf8Path) : GitIdentityPassthrough → List (String × String)
  | .host => readGitIdentityEntries host gitRoot
  | .codexExec => codexExecIdentityEntries

def homePath : Option Utf8Path :=
  match host.environment "HOME" with
  | some (.utf8 path) => some path
  | _ => none

/-- `commit_signing::detect_with`. -/
def detectCommitSigning (gitRoot : Utf8Path) (gitIdentity : GitIdentityPassthrough) :
    SshCommitSigningDetection :=
  let gitEntries := gitIdentityEntries host gitRoot gitIdentity
  let env := appendAgentboxGitIdentityEnv ∅ gitEntries
  let excludes := gitExcludes host gitRoot
  let mounts := excludes.mount.toList
  let gitEntries := gitEntries ++ excludes.gitConfigEntries
  match detectHostAgentSocket host with
  | none => ⟨⟨mounts, appendGitConfigEnv env gitEntries⟩, false⟩
  | some hostSocket =>
    let env := env.insert HOST_SSH_AUTH_SOCK_ENV CONTAINER_SSH_AUTH_SOCK
    let mounts := mounts ++ [{ kind := .bind, source := hostSocket.asStr, destination :=
      CONTAINER_SSH_AUTH_SOCK }]
    let gitEntries := gitEntries ++ readSshSigningConfigEntries host gitRoot (homePath host)
    ⟨⟨mounts, appendGitConfigEnv env gitEntries⟩, true⟩

/-! ### Known hosts -/

def knownHostsPassthrough (gitRoot : Utf8Path) : Passthrough :=
  match host.knownHostsFile gitRoot with
  | some source => ⟨[⟨.bind, source, CONTAINER_KNOWN_HOSTS, true⟩],
      .ofList [(GIT_SSH_COMMAND_ENV, GIT_SSH_COMMAND)]⟩
  | none => ⟨[], ∅⟩

/-- One passthrough after another, as they are applied to a run specification. -/
def combine (p q : Passthrough) : Passthrough :=
  ⟨p.mounts ++ q.mounts, p.environment ∪ q.environment⟩

/-- `apply_wayland_passthrough` and `apply_git_and_ssh_passthrough`. -/
def detectPassthrough (gitRoot : Utf8Path) (gitIdentity : GitIdentityPassthrough) : Passthrough :=
  let commitSigning := detectCommitSigning host gitRoot gitIdentity
  combine (combine (waylandPassthrough host) commitSigning.passthrough)
    (if commitSigning.hostAgentAvailable then knownHostsPassthrough host gitRoot else ⟨[], ∅⟩)

end

/-! ### What is meant to be passed on -/

section
variable (host : PassthroughHost) (gitRoot : Utf8Path)

/-- The value of a key in the host's configuration of the repository. -/
def configured (key : String) : Option String :=
  match host.gitConfig gitRoot key with
  | .ok value => value
  | .error _ => none

def intendedIdentity : GitIdentityPassthrough → List (String × String)
  | .host => GIT_IDENTITY_KEYS.filterMap fun key => (configured host gitRoot key).map (key, ·)
  | .codexExec => [("user.name", "Codex"), ("user.email", "noreply@openai.com")]

/-- `SSH_AUTH_SOCK` names a socket that accepts connections. -/
def usableAgent : Bool :=
  match host.environment HOST_SSH_AUTH_SOCK_ENV with
  | some (.utf8 path) => path.asStr ≠ "" && host.connectableUnixSocket path
  | _ => false

/-- A signing key is passed on as a public key, the other values as they are. -/
def normalizedSigningValue (key value : String) : Option String :=
  if key = "user.signingkey" then normalizeSigningKeyValue host value gitRoot (homePath host)
  else some value

def intendedSigning : List (String × String) :=
  if usableAgent host ∧ (configured host gitRoot "gpg.format").any (trim · == "ssh") then
    GIT_SIGNING_KEYS.filterMap fun key =>
      ((configured host gitRoot key).bind (normalizedSigningValue host gitRoot key)).map (key, ·)
  else []

end

/-- There is a mount at the destination. -/
def HasMount (mounts : List RuntimeMount) (destination : String) : Prop :=
  ∃ mount ∈ mounts, mount.destination = destination

instance (mounts : List RuntimeMount) (destination : String) :
    Decidable (HasMount mounts destination) :=
  inferInstanceAs (Decidable (∃ mount ∈ mounts, _))

def intendedEntries (host : PassthroughHost) (gitRoot : Utf8Path)
    (gitIdentity : GitIdentityPassthrough) (mounts : List RuntimeMount) : List (String × String) :=
  intendedIdentity host gitRoot gitIdentity ++
    (if HasMount mounts CONTAINER_GIT_EXCLUDES_FILE then
      [(GIT_EXCLUDES_FILE_KEY, CONTAINER_GIT_EXCLUDES_FILE)] else []) ++
    intendedSigning host gitRoot

/-! ### Entries -/

section
variable {host : PassthroughHost} {gitRoot : Utf8Path}

theorem readGitConfigKeys_eq : ∀ keys : List String, readGitConfigKeys host gitRoot keys =
    keys.filterMap fun key => (configured host gitRoot key).map (key, ·)
  | [] => rfl
  | key :: keys => by
    rw [readGitConfigKeys, List.filterMap_cons, readGitConfigKeys_eq keys, configured]
    rcases host.gitConfig gitRoot key with e | (_ | value) <;> rfl

theorem gitIdentityEntries_eq (gitIdentity : GitIdentityPassthrough) :
    gitIdentityEntries host gitRoot gitIdentity = intendedIdentity host gitRoot gitIdentity := by
  cases gitIdentity with
  | host => exact readGitConfigKeys_eq _
  | codexExec => rfl

/-- The loop drops every signing key, or keeps those that can be normalized. -/
theorem signingConfigEntries_eq (configured : Bool) :
    ∀ values : List (String × String), (∀ e ∈ values, isSigningConfigKey e.1 = true) →
      signingConfigEntries host gitRoot (homePath host) configured values =
        if configured then values.filterMap fun e =>
          (normalizedSigningValue host gitRoot e.1 e.2).map (e.1, ·) else []
  | [], _ => by cases configured <;> rfl
  | (key, value) :: values, h => by
    have hkey := h _ List.mem_cons_self
    have hrest := signingConfigEntries_eq configured values fun e he =>
      h e (List.mem_cons_of_mem _ he)
    rw [signingConfigEntries, hrest, hkey]
    by_cases hc : configured = true
    · simp only [hc, List.filterMap_cons, normalizedSigningValue]
      by_cases hsign : key = "user.signingkey"
      · simp only [hsign, if_pos]
        rcases normalizeSigningKeyValue host value gitRoot (homePath host) with _ | v <;> simp
      · simp [hsign]
    · simp [hc]

theorem isSigningConfigKey_of_mem {key : String} (h : key ∈ GIT_SIGNING_KEYS) :
    isSigningConfigKey key = true := by
  revert key
  decide

theorem any_gpgFormat : ((readGitConfigKeys host gitRoot GIT_SIGNING_KEYS).any fun e =>
    e.1 == "gpg.format" && trim e.2 == "ssh") =
      (configured host gitRoot "gpg.format").any (trim · == "ssh") := by
  rw [readGitConfigKeys_eq]
  simp only [GIT_SIGNING_KEYS, List.filterMap_cons, List.filterMap_nil]
  rcases configured host gitRoot "gpg.format" with _ | a <;>
    rcases configured host gitRoot "user.signingkey" with _ | b <;>
      rcases configured host gitRoot "commit.gpgsign" with _ | c <;> simp

theorem readSshSigningConfigEntries_eq (h : usableAgent host = true) :
    readSshSigningConfigEntries host gitRoot (homePath host) = intendedSigning host gitRoot := by
  have hkeys : ∀ e ∈ readGitConfigKeys host gitRoot GIT_SIGNING_KEYS,
      isSigningConfigKey e.1 = true := by
    intro e he
    rw [readGitConfigKeys_eq, List.mem_filterMap] at he
    obtain ⟨key, hkey, hvalue⟩ := he
    obtain ⟨value, -, rfl⟩ := Option.map_eq_some_iff.1 hvalue
    exact isSigningConfigKey_of_mem hkey
  have hread : readSshSigningConfigEntries host gitRoot (homePath host) =
      signingConfigEntries host gitRoot (homePath host)
        ((configured host gitRoot "gpg.format").any (trim · == "ssh"))
        (readGitConfigKeys host gitRoot GIT_SIGNING_KEYS) := by
    rw [← any_gpgFormat]
    rfl
  rw [hread, signingConfigEntries_eq _ _ hkeys, intendedSigning, readGitConfigKeys_eq,
    List.filterMap_filterMap]
  simp only [h, true_and]
  congr 2
  funext key
  rcases configured host gitRoot key with _ | value <;> rfl

/-! ### The mounts and the environment -/

theorem detectHostAgentSocket_isSome :
    (detectHostAgentSocket host).isSome = usableAgent host := by
  rw [detectHostAgentSocket, pathVariable, usableAgent]
  rcases host.environment HOST_SSH_AUTH_SOCK_ENV with _ | (path | ⟨isAbsolute, display⟩)
  · rfl
  · by_cases hempty : path.asStr = ""
    · simp [hempty]
    · cases hconnect : host.connectableUnixSocket path <;> simp [hempty, hconnect, Option.filter]
  · rfl

theorem gitExcludes_entries : (gitExcludes host gitRoot).gitConfigEntries =
    if (gitExcludes host gitRoot).mount.isSome then
      [(GIT_EXCLUDES_FILE_KEY, CONTAINER_GIT_EXCLUDES_FILE)] else [] := by
  rw [gitExcludes]
  split <;> rfl

theorem destination_of_gitExcludes {mount : RuntimeMount}
    (h : (gitExcludes host gitRoot).mount = some mount) :
    mount.destination = CONTAINER_GIT_EXCLUDES_FILE := by
  rw [gitExcludes] at h
  split at h <;> cases h
  rfl

variable {gitIdentity : GitIdentityPassthrough}

/-- The variables that something other than commit signing sets in the container. -/
def otherVariables : List String :=
  ["OPENCODE_CONFIG_CONTENT", "OPENCODE_PERMISSION", CODEX_HOME_ENV, HOST_WAYLAND_DISPLAY_ENV,
    GIT_SSH_COMMAND_ENV, AGENTBOX_GIT_IDENTITY_NAME_ENV, AGENTBOX_GIT_IDENTITY_EMAIL_ENV]

theorem not_mem_otherVariables {name : String}
    (h : startsWith name "GIT_CONFIG_" = true ∨ name = HOST_SSH_AUTH_SOCK_ENV) :
    name ∉ otherVariables := by
  have hall : ∀ other ∈ otherVariables,
      ¬ (startsWith other "GIT_CONFIG_" = true ∨ other = HOST_SSH_AUTH_SOCK_ENV) := by decide
  exact fun hmem => hall name hmem h

theorem getElem?_appendAgentboxGitIdentityEnv {name : String} (hname : name ∉ otherVariables) :
    ∀ (entries : List (String × String)) (env : LabelMap),
      (appendAgentboxGitIdentityEnv env entries)[name]? = env[name]?
  | [], _ => rfl
  | e :: entries, env => by
    have hne : ∀ other ∈ otherVariables, other ≠ name := fun other hother heq =>
      hname (heq ▸ hother)
    rw [appendAgentboxGitIdentityEnv, List.foldl_cons]
    refine (getElem?_appendAgentboxGitIdentityEnv hname entries _).trans ?_
    split_ifs
    · exact getElem?_insert_of_ne _ _ (hne _ (by simp [otherVariables]))
    · exact getElem?_insert_of_ne _ _ (hne _ (by simp [otherVariables]))
    · rfl

theorem getElem?_ofList_other {name : String} (hname : name ∉ otherVariables)
    {entries : List (String × String)} (h : entries.map Prod.fst ⊆ otherVariables) :
    (Std.ExtTreeMap.ofList entries compare)[name]? = none := by
  have hlacks : Lacks (Std.ExtTreeMap.ofList entries compare) [name] :=
    lacks_ofList fun k hk hmem => hname (List.mem_singleton.1 hk ▸ h hmem)
  exact hlacks name List.mem_cons_self

theorem getElem?_waylandPassthrough {name : String} (hname : name ∉ otherVariables) :
    (waylandPassthrough host).environment[name]? = none := by
  rw [waylandPassthrough]
  split
  · exact getElem?_ofList_other hname (by decide)
  · exact Std.ExtTreeMap.getElem?_empty

theorem getElem?_knownHostsPassthrough {name : String} (hname : name ∉ otherVariables) :
    (knownHostsPassthrough host gitRoot).environment[name]? = none := by
  rw [knownHostsPassthrough]
  split
  · exact getElem?_ofList_other hname (by decide)
  · exact Std.ExtTreeMap.getElem?_empty

theorem getElem?_defaultEnv {name : String} (hname : name ∉ otherVariables) :
    ∀ runtime : RuntimeKind, (defaultEnv runtime)[name]? = none
  | .opencode => getElem?_ofList_other hname (by decide)
  | .codex => Std.ExtTreeMap.getElem?_empty

theorem getElem?_detectPassthrough {name : String} (hname : name ∉ otherVariables) :
    (detectPassthrough host gitRoot gitIdentity).environment[name]? =
      (detectCommitSigning host gitRoot gitIdentity).passthrough.environment[name]? := by
  have hknown : (if (detectCommitSigning host gitRoot gitIdentity).hostAgentAvailable then
      knownHostsPassthrough host gitRoot else ⟨[], ∅⟩).environment[name]? = none := by
    split_ifs
    · exact getElem?_knownHostsPassthrough hname
    · exact Std.ExtTreeMap.getElem?_empty
  rw [detectPassthrough, combine, combine, Std.ExtTreeMap.getElem?_union,
    Std.ExtTreeMap.getElem?_union, hknown, getElem?_waylandPassthrough hname, Option.none_or,
    Option.or_none]

/-! ### Commit signing -/

/-- The entries that the commit-signing part writes, and what is there beside them. -/
theorem detectCommitSigning_environment :
    ∃ env : LabelMap,
      (detectCommitSigning host gitRoot gitIdentity).passthrough.environment =
        appendGitConfigEnv env (intendedIdentity host gitRoot gitIdentity ++
          (gitExcludes host gitRoot).gitConfigEntries ++ intendedSigning host gitRoot) ∧
      (∀ name, startsWith name "GIT_CONFIG_" = true → env[name]? = none) ∧
      env[HOST_SSH_AUTH_SOCK_ENV]? =
        if usableAgent host then some CONTAINER_SSH_AUTH_SOCK else none := by
  have hidentity : ∀ name, startsWith name "GIT_CONFIG_" = true ∨ name = HOST_SSH_AUTH_SOCK_ENV →
      (appendAgentboxGitIdentityEnv ∅ (gitIdentityEntries host gitRoot gitIdentity))[name]? =
        none := fun name hname =>
    (getElem?_appendAgentboxGitIdentityEnv (not_mem_otherVariables hname) _ _).trans
      Std.ExtTreeMap.getElem?_empty
  have hagent := @detectHostAgentSocket_isSome host
  rw [detectCommitSigning]
  rcases hsocket : detectHostAgentSocket host with _ | socket
  · rw [hsocket, Option.isSome_none] at hagent
    refine ⟨_, ?_, fun name hname => hidentity name (Or.inl hname), ?_⟩
    · rw [← gitIdentityEntries_eq, intendedSigning, ← hagent, if_neg (by simp), List.append_nil]
    · rw [hidentity _ (Or.inr rfl), ← hagent]
      rfl
  · rw [hsocket, Option.isSome_some] at hagent
    refine ⟨(appendAgentboxGitIdentityEnv ∅ (gitIdentityEntries host gitRoot gitIdentity)).insert
      HOST_SSH_AUTH_SOCK_ENV CONTAINER_SSH_AUTH_SOCK, ?_, fun name hname => ?_, ?_⟩
    · rw [← gitIdentityEntries_eq, ← readSshSigningConfigEntries_eq hagent.symm]
    · have hne : HOST_SSH_AUTH_SOCK_ENV ≠ name := by
        rintro rfl
        revert hname
        decide
      exact (getElem?_insert_of_ne _ _ hne).trans (hidentity name (Or.inl hname))
    · rw [Std.ExtTreeMap.getElem?_insert_self, ← hagent]
      rfl

/-! ### The launch -/

/-- The destinations of the mounts that are added, in their order. -/
theorem destinations_detectPassthrough :
    (detectPassthrough host gitRoot gitIdentity).mounts.map (·.destination) =
      (if (waylandSocket host).isSome then [CONTAINER_WAYLAND_DISPLAY] else []) ++
      (if (gitExcludes host gitRoot).mount.isSome then [CONTAINER_GIT_EXCLUDES_FILE] else []) ++
      (if usableAgent host then CONTAINER_SSH_AUTH_SOCK ::
        (if (host.knownHostsFile gitRoot).isSome then [CONTAINER_KNOWN_HOSTS] else []) else []) := by
  have hwayland : (waylandPassthrough host).mounts.map (·.destination) =
      if (waylandSocket host).isSome then [CONTAINER_WAYLAND_DISPLAY] else [] := by
    rw [waylandPassthrough]
    rcases waylandSocket host with _ | socket <;> rfl
  have hexcludes : (gitExcludes host gitRoot).mount.toList.map (·.destination) =
      if (gitExcludes host gitRoot).mount.isSome then [CONTAINER_GIT_EXCLUDES_FILE] else [] := by
    rcases hmount : (gitExcludes host gitRoot).mount with _ | mount
    · rfl
    · simp [destination_of_gitExcludes hmount]
  have hknown : (knownHostsPassthrough host gitRoot).mounts.map (·.destination) =
      if (host.knownHostsFile gitRoot).isSome then [CONTAINER_KNOWN_HOSTS] else [] := by
    rw [knownHostsPassthrough]
    rcases host.knownHostsFile gitRoot with _ | source <;> rfl
  rw [← hwayland, ← hexcludes, ← hknown, ← detectHostAgentSocket_isSome, detectPassthrough,
    detectCommitSigning]
  rcases detectHostAgentSocket host with _ | socket <;> simp [combine]

theorem hasMount_iff {mounts : List RuntimeMount} {destination : String} :
    HasMount mounts destination ↔ destination ∈ mounts.map (·.destination) :=
  List.mem_map.symm

theorem hasMount_excludes :
    HasMount (detectPassthrough host gitRoot gitIdentity).mounts CONTAINER_GIT_EXCLUDES_FILE ↔
      (gitExcludes host gitRoot).mount.isSome = true := by
  rw [hasMount_iff, destinations_detectPassthrough]
  by_cases h : (gitExcludes host gitRoot).mount.isSome = true
  · simp [h]
  · refine iff_of_false ?_ h
    rw [if_neg h]
    split_ifs <;> decide

theorem hasMount_agent :
    HasMount (detectPassthrough host gitRoot gitIdentity).mounts CONTAINER_SSH_AUTH_SOCK ↔
      usableAgent host = true := by
  rw [hasMount_iff, destinations_detectPassthrough]
  by_cases h : usableAgent host = true
  · simp [h]
  · refine iff_of_false ?_ h
    rw [if_neg h]
    split_ifs <;> decide

variable {request : RuntimeLaunchRequest} {preparation : ContainerLaunchPreparation}
  {invocation : Agentbox.Runtime.Spec.RuntimeInvocation} {snapshot : PreflightSnapshot}

theorem create_recordRuntimeImageVersion (version : Option String) (policy : RuntimeLaunchPolicy)
    (runtime : RuntimeKind) (spec : RuntimeRunSpec) :
    (recordRuntimeImageVersion runtime version policy spec).create.defaultEnv =
        spec.create.defaultEnv ∧
      (recordRuntimeImageVersion runtime version policy spec).create.mounts =
        spec.create.mounts := by
  unfold recordRuntimeImageVersion
  split <;> exact ⟨rfl, rfl⟩

theorem create_recordManagedResourceLimits (policy : RuntimeLaunchPolicy) (spec : RuntimeRunSpec) :
    (recordManagedResourceLimits policy spec).create.defaultEnv = spec.create.defaultEnv ∧
      (recordManagedResourceLimits policy spec).create.mounts = spec.create.mounts := by
  rw [recordManagedResourceLimits]
  split_ifs <;> exact ⟨rfl, rfl⟩

/-- The environment of a launch, in the order in which it is filled. -/
theorem defaultEnv_launchRunSpec (passthrough : Agentbox.Commands.HostCalls.Passthrough) :
    (launchRunSpec request preparation invocation passthrough).create.defaultEnv =
      defaultEnv request.runtime ∪ preparation.preflight.runtimeEnvironment ∪
        passthrough.environment := by
  rw [launchRunSpec, (create_recordManagedResourceLimits _ _).1,
    (create_recordRuntimeImageVersion _ _ _ _).1]
  rfl

/-- The mounts of a launch, in their order. -/
theorem mounts_launchRunSpec (passthrough : Agentbox.Commands.HostCalls.Passthrough) :
    (launchRunSpec request preparation invocation passthrough).create.mounts =
      runtimeMountsForWorkspace request.workspace preparation.preflight.hostNixMounts
        preparation.preflight.runtimeMounts ++ passthrough.mounts := by
  rw [launchRunSpec, (create_recordManagedResourceLimits _ _).2,
    (create_recordRuntimeImageVersion _ _ _ _).2]
  rfl

/-- Of the variables of a container only commit signing sets these. -/
theorem getElem?_launchRunSpec {name : String}
    (hreport : checkHostPrerequisitesWithSnapshot snapshot request.runtime
      request.policy.runMode = .ok preparation.preflight)
    (hname : startsWith name "GIT_CONFIG_" = true ∨ name = HOST_SSH_AUTH_SOCK_ENV) :
    (launchRunSpec request preparation invocation
      (detectPassthrough host gitRoot gitIdentity)).create.defaultEnv[name]? =
        (detectCommitSigning host gitRoot gitIdentity).passthrough.environment[name]? := by
  have hother := not_mem_otherVariables hname
  have hcodex : name ≠ CODEX_HOME_ENV := fun heq => hother (heq ▸ by decide)
  rw [defaultEnv_launchRunSpec, Std.ExtTreeMap.getElem?_union, Std.ExtTreeMap.getElem?_union,
    getElem?_defaultEnv hother, getElem?_runtimeEnvironment hreport hcodex,
    getElem?_detectPassthrough hother]
  exact Option.or_none

/-- **Git reads exactly what is meant for it**: the identity, the excludes file if it is mounted, and
the signing configuration if the agent can be used; and nothing is set where there is nothing to
read. -/
theorem gitConfigOfEnv_launchRunSpec (host : PassthroughHost) (gitIdentity : GitIdentityPassthrough)
    (request : RuntimeLaunchRequest) (preparation : ContainerLaunchPreparation)
    (invocation : Agentbox.Runtime.Spec.RuntimeInvocation) (snapshot : PreflightSnapshot)
    (hreport : checkHostPrerequisitesWithSnapshot snapshot request.runtime
      request.policy.runMode = .ok preparation.preflight) :
    let gitRoot := request.workspace.canonicalGitRoot
    let added := detectPassthrough host gitRoot gitIdentity
    let env := (launchRunSpec request preparation invocation added).create.defaultEnv
    let entries := intendedEntries host gitRoot gitIdentity added.mounts
    gitConfigOfEnv env = some entries ∧
    (entries = [] → ∀ name, startsWith name "GIT_CONFIG_" = true → env[name]? = none) ∧
    env[HOST_SSH_AUTH_SOCK_ENV]? =
      if HasMount added.mounts CONTAINER_SSH_AUTH_SOCK then some CONTAINER_SSH_AUTH_SOCK
      else none := by
  intro gitRoot added env entries
  obtain ⟨before, hbefore, hgit, hsock⟩ :=
    @detectCommitSigning_environment host gitRoot gitIdentity
  have hentries : entries = intendedIdentity host gitRoot gitIdentity ++
      (gitExcludes host gitRoot).gitConfigEntries ++ intendedSigning host gitRoot := by
    simp only [entries, intendedEntries, added, hasMount_excludes, gitExcludes_entries]
  have henv : ∀ name, startsWith name "GIT_CONFIG_" = true ∨ name = HOST_SSH_AUTH_SOCK_ENV →
      env[name]? = (appendGitConfigEnv before entries)[name]? := fun name hname => by
    rw [hentries, ← hbefore]
    exact getElem?_launchRunSpec hreport hname
  refine ⟨?_, fun hnil name hname => ?_, ?_⟩
  · have hcongr : gitConfigVariables.decode env =
        gitConfigVariables.decode (appendGitConfigEnv before entries) :=
      Numbering.decode_congr fun name huses => henv name (Or.inl (startsWith_of_uses huses))
    rw [gitConfigOfEnv, hcongr, appendGitConfigEnv_eq]
    exact Numbering.decode_append (hgit _ (by decide))
  · rw [henv name (Or.inl hname), hnil]
    exact hgit name hname
  · have hunused : ¬ gitConfigVariables.Uses HOST_SSH_AUTH_SOCK_ENV := fun huses =>
      absurd (startsWith_of_uses huses) (by decide)
    rw [henv _ (Or.inr rfl), appendGitConfigEnv_eq, Numbering.getElem?_append hunused, hsock]
    simp only [added, hasMount_agent]

end

/-- A host with an agent, a name and an `ssh` signing format but no signing key. -/
def signingHost : PassthroughHost where
  environment name :=
    if name = HOST_SSH_AUTH_SOCK_ENV then some (.utf8 ⟨"/tmp/agent.sock"⟩) else none
  gitConfig _ key := .ok (if key = "user.name" then some "Alice"
    else if key = "gpg.format" then some " ssh" else if key = "commit.gpgsign" then some "true"
    else none)
  gitConfigPath _ _ := .ok (some "/home/alice/ignore")
  isFile path := path.asStr = "/home/alice/ignore"
  canOpen _ := true
  readToString _ := none
  connectableUnixSocket path := path.asStr = "/tmp/agent.sock"
  knownHostsFile _ := none

/-- A state directory that passes its checks. -/
def usableDirectory (source : String) : HostDirectoryPreflightSnapshot where
  source := some ⟨source⟩
  sourceEnvironmentVariable := none
  sourceError := none
  exists_ := true
  isDirectory := true
  readable := true
  writable := true
  searchable := true

/-- A host that meets every prerequisite, with the given state directories. -/
def passingSnapshot (state : List (String × HostDirectoryPreflightSnapshot)) :
    PreflightSnapshot where
  host := ⟨true, true, .ofList state⟩
  nix := ⟨true, some ⟨"/usr/bin/nix"⟩, true, true, false, false, false⟩

def opencodeSnapshot : PreflightSnapshot :=
  passingSnapshot [(OPENCODE_CONFIG_DESTINATION, usableDirectory "/home/alice/.config/opencode"),
    (OPENCODE_DATA_DESTINATION, usableDirectory "/home/alice/.local/share/opencode")]

/-- A managed server for the root `/src/box`. -/
def boxRequest (runtime : RuntimeKind) : RuntimeLaunchRequest :=
  managedServerLaunchRequest (workspaceAt ⟨"/src/box"⟩) runtime .none false [] ⟨none, none⟩

theorem gitConfigOfEnv_launchRunSpec_signingHost : ∃ preflight,
    checkHostPrerequisitesWithSnapshot opencodeSnapshot .opencode .managedSession =
        .ok preflight ∧
      gitConfigOfEnv (launchRunSpec (boxRequest .opencode) ⟨preflight, .none, none⟩
          ⟨[], ⟨"/src/box"⟩⟩ (detectPassthrough signingHost ⟨"/src/box"⟩ .host)).create.defaultEnv =
        some [("user.name", "Alice"), ("core.excludesFile", "/run/agentbox/git-ignore"),
          ("gpg.format", " ssh"), ("commit.gpgsign", "true")] := by
  have hok : (checkHostPrerequisitesWithSnapshot opencodeSnapshot .opencode
      .managedSession).toOption.isSome = true := by decide +kernel
  rcases hreport : checkHostPrerequisitesWithSnapshot opencodeSnapshot .opencode .managedSession
    with e | preflight
  · rw [hreport] at hok
    cases hok
  · refine ⟨preflight, rfl, (gitConfigOfEnv_launchRunSpec signingHost .host (boxRequest .opencode)
      ⟨preflight, .none, none⟩ ⟨[], ⟨"/src/box"⟩⟩ opencodeSnapshot hreport).1.trans ?_⟩
    decide +kernel

end Agentbox.SshSigning.HostPassthrough
