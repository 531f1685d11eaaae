import Agentbox.Commands.HostCalls
import Agentbox.Lib.Entries
import Agentbox.Preflight.Snapshot

/-! # Preflight checks

`preflight/check.rs` and `preflight/mounts.rs`: the report that a launch takes its mounts from. -/

namespace Agentbox.Preflight.Check

open Agentbox.Base.Path Agentbox.Base.Errors Agentbox.Commands.HostCalls Agentbox.Lib.Entries
  Agentbox.Metadata.Labels Agentbox.Preflight.Snapshot Agentbox.Runtime.HostState Agentbox.Runtime.Kind
  Agentbox.Runtime.Spec

/-! ### Host state -/

structure RuntimeHostStatePreflight where
  mounts : List RuntimeMount
  environment : LabelMap

def hostStateSnapshot (snapshot : PreflightSnapshot) (spec : RuntimeHostStateMount) :
    Except Error HostDirectoryPreflightSnapshot :=
  match snapshot.host.runtimeState[spec.snapshotKey]? with
  | some state => .ok state
  | none => .error (.msg ("missing preflight snapshot for runtime host-state mount `" ++
      spec.snapshotKey ++ "`"))

def missingSourceError (runtime : RuntimeKind) (spec : RuntimeHostStateMount) : Error :=
  let subject := spec.productName ++ " " ++ spec.description ++ " directory " ++
    spec.source.expression ++ " for `run --runtime " ++ runtime.asStr ++ "`"
  match spec.source with
  | .environmentOrHome _ _ => .msg ("Cannot locate host " ++ subject ++
      "; set `CODEX_HOME` or `HOME`, then retry.")
  | .homeOnly _ => .msg ("`HOME` is not set; cannot locate host " ++ subject)
  | .xdgOrHome _ _ _ => .msg ("Cannot locate host " ++ subject ++
      "; set `HOME` or the matching XDG environment variable, then retry.")

def missingDirectoryError (runtime : RuntimeKind) (spec : RuntimeHostStateMount)
    (source : Utf8Path) : Error :=
  .msg ("Missing host " ++ spec.productName ++ " " ++ spec.description ++ " directory: " ++
    source.asStr ++ ". Run `" ++ runtime.asStr ++ "` on the host first so " ++
    spec.source.expression ++ " exists, then retry `agentbox run --runtime " ++ runtime.asStr ++
    "`.")

def notADirectoryError (spec : RuntimeHostStateMount) (source : Utf8Path) : Error :=
  .msg ("Host " ++ spec.productName ++ " " ++ spec.description ++ " path is not a directory: " ++
    source.asStr)

def inaccessibleDirectoryError (spec : RuntimeHostStateMount) (source : Utf8Path) : Error :=
  .msg ("Host " ++ spec.productName ++ " " ++ spec.description ++
    " directory is not readable and writable: " ++ source.asStr)

/-- `HostStateMountRequirement::validate`. -/
def validate (runtime : RuntimeKind) (spec : RuntimeHostStateMount)
    (state : HostDirectoryPreflightSnapshot) :
    Except Error (RuntimeMount × Option (String × String)) :=
  match state.sourceError, state.source with
  | some error, _ => .error (.msg error)
  | none, none => .error (missingSourceError runtime spec)
  | none, some source => do
    let destination ← spec.destination.resolve source state.sourceEnvironmentVariable
    if !state.exists_ then throw (missingDirectoryError runtime spec source)
    if !state.isDirectory then throw (notADirectoryError spec source)
    if !state.readable || !state.writable || !state.searchable then
      throw (inaccessibleDirectoryError spec source)
    return ({ kind := .bind, source := source.asStr, destination },
      spec.containerEnvironmentFor source state.sourceEnvironmentVariable)

/-- `runtime_mounts`, for the rest of the specifications. -/
def runtimeMountsFor (snapshot : PreflightSnapshot) (runtime : RuntimeKind) :
    List RuntimeHostStateMount → RuntimeHostStatePreflight → Except Error RuntimeHostStatePreflight
  | [], preflight => .ok preflight
  | spec :: specs, preflight => do
    let state ← hostStateSnapshot snapshot spec
    let (mount, environment) ← validate runtime spec state
    runtimeMountsFor snapshot runtime specs
      ⟨preflight.mounts ++ [mount],
        environment.elim preflight.environment fun e => preflight.environment.insert e.1 e.2⟩

def runtimeMounts (snapshot : PreflightSnapshot) (runtime : RuntimeKind)
    (runMode : RuntimeRunMode) : Except Error RuntimeHostStatePreflight :=
  runtimeMountsFor snapshot runtime (hostStateMounts runtime runMode) ⟨[], ∅⟩

/-! ### Nix -/

inductive HostNixMountSpec
  | samePath (path : String)
  | nixClient (destination : String)
  | staticNix (path : String)
  deriving DecidableEq, Repr

def HOST_NIX_MOUNTS : List HostNixMountSpec :=
  [.samePath NIX_STORE_DESTINATION, .nixClient NIX_CLIENT_DESTINATION,
    .samePath ETC_NIX_DESTINATION, .staticNix ETC_STATIC_NIX_DESTINATION]

namespace HostNixMountSpec

def mount (nixClientSource : Utf8Path) : HostNixMountSpec → RuntimeMount
  | samePath path | staticNix path => ⟨.bind, path, path, true⟩
  | nixClient destination => ⟨.bind, nixClientSource.asStr, destination, true⟩

def isIncluded (includeStaticNixMount : Bool) : HostNixMountSpec → Bool
  | staticNix _ => includeStaticNixMount
  | _ => true

end HostNixMountSpec

def hostNixMounts (nixClientSource : Utf8Path) (includeStaticNixMount : Bool) :
    List RuntimeMount :=
  (HOST_NIX_MOUNTS.filter (·.isIncluded includeStaticNixMount)).map (·.mount nixClientSource)

/-! ### The check -/

def validateHostTools (snapshot : PreflightSnapshot) : Except Error Unit :=
  if !snapshot.host.hasGit then
    .error (.msg "`git` was not found on PATH; install `git` or add it to PATH")
  else if !snapshot.host.hasPodman then
    .error (.msg "`podman` was not found on PATH; install `podman` or add it to PATH")
  else .ok ()

def validateNixDaemon (snapshot : PreflightSnapshot) : Except Error Unit :=
  if snapshot.nix.hasDaemonSocket then .ok ()
  else .error (.msg ("Missing host nix-daemon socket at: " ++ NIX_DAEMON_SOCKET_PATH ++
    ". Mount /nix:/nix:ro."))

def nixClientSource (snapshot : PreflightSnapshot) : Except Error Utf8Path :=
  match snapshot.nix.clientSource with
  | some source => .ok source
  | none => .error (.msg ("`nix` was not found on PATH; install Nix or add the host `nix` " ++
      "client to PATH"))

def validateNixConfig (snapshot : PreflightSnapshot) : Except Error Unit :=
  let config := snapshot.nix.config
  if !config.hasEtcNixMount then
    .error (.msg ("Missing /etc/nix host mount. Mount /etc/nix:/etc/nix:ro so the wrapper " ++
      "inherits the host config and registry."))
  else if !config.hasReadableNixConf then
    .error (.msg ("Missing readable host Nix config: /etc/nix/nix.conf. " ++
      "Mount /etc/nix:/etc/nix:ro."))
  else if config.customConf.present && !config.customConf.hasReadableTarget then
    .error (.msg ("Missing readable target for /etc/nix/nix.custom.conf. Mount " ++
      "/etc/static/nix:/etc/static/nix:ro when /etc/nix points there."))
  else .ok ()

/-- `check_host_prerequisites_with_snapshot_for_mode`. -/
def checkHostPrerequisitesWithSnapshot (snapshot : PreflightSnapshot) (runtime : RuntimeKind)
    (runMode : RuntimeRunMode) : Except Error PreflightReport := do
  validateHostTools snapshot
  validateNixDaemon snapshot
  let nixClientSource ← nixClientSource snapshot
  validateNixConfig snapshot
  let runtimePreflight ← runtimeMounts snapshot runtime runMode
  return ⟨hostNixMounts nixClientSource snapshot.nix.config.customConf.needsStaticMount,
    runtimePreflight.mounts, runtimePreflight.environment⟩

/-! ### Reports -/

theorem validate_ok {runtime : RuntimeKind} {spec : RuntimeHostStateMount}
    {state : HostDirectoryPreflightSnapshot} {mount : RuntimeMount}
    {environment : Option (String × String)}
    (h : validate runtime spec state = .ok (mount, environment)) :
    ∃ source, state.source = some source ∧
      spec.destination.resolve source state.sourceEnvironmentVariable = .ok mount.destination ∧
      mount = { kind := .bind, source := source.asStr, destination := mount.destination } ∧
      environment = spec.containerEnvironmentFor source state.sourceEnvironmentVariable := by
  rw [validate] at h
  split at h
  · cases h
  · cases h
  · next source _ hsource =>
    rcases hresolve : spec.destination.resolve source state.sourceEnvironmentVariable with
      e | destination
    · rw [hresolve] at h
      cases h
    · rw [hresolve] at h
      simp only [bind, Except.bind, pure, Except.pure, throw, throwThe, MonadExceptOf.throw] at h
      split_ifs at h
      cases h
      exact ⟨source, hsource, hresolve, rfl, rfl⟩

/-- A mount that a specification leads to in a snapshot. -/
def IsMounted (snapshot : PreflightSnapshot) (spec : RuntimeHostStateMount) (mount : RuntimeMount) :
    Prop :=
  ∃ state source, snapshot.host.runtimeState[spec.snapshotKey]? = some state ∧
    state.source = some source ∧
    spec.destination.resolve source state.sourceEnvironmentVariable = .ok mount.destination ∧
    mount = { kind := .bind, source := source.asStr, destination := mount.destination }

theorem runtimeMountsFor_cons_ok {snapshot : PreflightSnapshot} {runtime : RuntimeKind}
    {spec : RuntimeHostStateMount} {specs : List RuntimeHostStateMount}
    {preflight result : RuntimeHostStatePreflight}
    (h : runtimeMountsFor snapshot runtime (spec :: specs) preflight = .ok result) :
    ∃ state mount environment, snapshot.host.runtimeState[spec.snapshotKey]? = some state ∧
      validate runtime spec state = .ok (mount, environment) ∧
      runtimeMountsFor snapshot runtime specs ⟨preflight.mounts ++ [mount],
        environment.elim preflight.environment fun e => preflight.environment.insert e.1 e.2⟩ =
          .ok result := by
  rw [runtimeMountsFor, hostStateSnapshot] at h
  rcases hstate : snapshot.host.runtimeState[spec.snapshotKey]? with _ | state
  · rw [hstate] at h
    cases h
  rcases hvalidate : validate runtime spec state with e | ⟨mount, environment⟩
  · simp only [hstate, bind, Except.bind, hvalidate] at h
    cases h
  · simp only [hstate, bind, Except.bind, hvalidate] at h
    exact ⟨state, mount, environment, rfl, hvalidate, h⟩

theorem runtimeMountsFor_mounts {snapshot : PreflightSnapshot} {runtime : RuntimeKind}
    {result : RuntimeHostStatePreflight} : ∀ (specs : List RuntimeHostStateMount)
    (preflight : RuntimeHostStatePreflight),
      runtimeMountsFor snapshot runtime specs preflight = .ok result →
        ∃ mounts, result.mounts = preflight.mounts ++ mounts ∧
          List.Forall₂ (IsMounted snapshot) specs mounts
  | [], preflight, h => by
    cases h
    exact ⟨[], (List.append_nil _).symm, .nil⟩
  | spec :: specs, preflight, h => by
    obtain ⟨state, mount, environment, hstate, hvalidate, hrest⟩ := runtimeMountsFor_cons_ok h
    obtain ⟨source, hsource, hresolve, hmount, -⟩ := validate_ok hvalidate
    obtain ⟨mounts, hmounts, hall⟩ := runtimeMountsFor_mounts specs _ hrest
    refine ⟨mount :: mounts, ?_, .cons ⟨state, source, hstate, hsource, hresolve, hmount⟩ hall⟩
    rw [hmounts, List.append_assoc]
    rfl

theorem runtimeMountsFor_environment {snapshot : PreflightSnapshot} {runtime : RuntimeKind}
    {result : RuntimeHostStatePreflight} {name : String} (hname : name ≠ CODEX_HOME_ENV) :
    ∀ (specs : List RuntimeHostStateMount) (preflight : RuntimeHostStatePreflight),
      (∀ spec ∈ specs, ∀ env, spec.containerEnvironment = some env → env.name = CODEX_HOME_ENV) →
        runtimeMountsFor snapshot runtime specs preflight = .ok result →
          result.environment[name]? = preflight.environment[name]?
  | [], preflight, _, h => by
    cases h
    rfl
  | spec :: specs, preflight, hspecs, h => by
    obtain ⟨state, mount, environment, -, hvalidate, hrest⟩ := runtimeMountsFor_cons_ok h
    obtain ⟨source, -, -, -, rfl⟩ := validate_ok hvalidate
    rw [runtimeMountsFor_environment hname specs _
      (fun spec' hspec' => hspecs spec' (List.mem_cons_of_mem _ hspec')) hrest]
    simp only [RuntimeHostStateMount.containerEnvironmentFor,
      RuntimeHostStateContainerEnvironment.entryFor]
    rcases henv : spec.containerEnvironment with _ | env
    · rfl
    · have hcodex := hspecs spec List.mem_cons_self env henv
      rw [Option.bind_some]
      split_ifs
      · exact getElem?_insert_of_ne _ _ (hcodex ▸ hname.symm)
      · rfl

theorem checkHostPrerequisites_ok {snapshot : PreflightSnapshot} {runtime : RuntimeKind}
    {runMode : RuntimeRunMode} {report : PreflightReport}
    (h : checkHostPrerequisitesWithSnapshot snapshot runtime runMode = .ok report) :
    ∃ client, report.hostNixMounts =
        hostNixMounts client snapshot.nix.config.customConf.needsStaticMount ∧
      runtimeMounts snapshot runtime runMode =
        .ok ⟨report.runtimeMounts, report.runtimeEnvironment⟩ := by
  simp only [checkHostPrerequisitesWithSnapshot, bind_eq_ok] at h
  obtain ⟨_, -, _, -, client, -, _, -, preflight, hmounts, h⟩ := h
  cases h
  exact ⟨client, rfl, hmounts⟩

/-- The report sets no variable but `CODEX_HOME`. -/
theorem getElem?_runtimeEnvironment {snapshot : PreflightSnapshot} {runtime : RuntimeKind}
    {runMode : RuntimeRunMode} {report : PreflightReport} {name : String}
    (h : checkHostPrerequisitesWithSnapshot snapshot runtime runMode = .ok report)
    (hname : name ≠ CODEX_HOME_ENV) : report.runtimeEnvironment[name]? = none := by
  obtain ⟨client, -, hmounts⟩ := checkHostPrerequisites_ok h
  have hspecs : ∀ spec ∈ hostStateMounts runtime runMode, ∀ env,
      spec.containerEnvironment = some env → env.name = CODEX_HOME_ENV :=
    fun spec hspec env henv => containerEnvironment_of_mem hspec henv
  rw [runtimeMountsFor_environment hname _ _ hspecs hmounts]
  exact Std.ExtTreeMap.getElem?_empty

end Agentbox.Preflight.Check
