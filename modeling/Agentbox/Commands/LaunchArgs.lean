import Agentbox.Commands.MountDestinations
import Agentbox.Commands.SingleServer
import Agentbox.Podman.RunArgs

/-! # What Podman is asked to start

The labels and the variables of a server have names that a command line can say, whatever the host
is like. What is lost of a specification on its way to Podman is lost in its mounts. -/

namespace Agentbox.Commands.LaunchArgs

open Agentbox.Base.Path Agentbox.Base.Errors Agentbox.Config.Limits Agentbox.Lib.CommandLine
  Agentbox.Lib.Program Agentbox.Metadata.Labels Agentbox.Metadata.Session Agentbox.Podman.RunArgs
  Agentbox.Preflight.Check Agentbox.Preflight.Snapshot Agentbox.Runtime.HostState
  Agentbox.Runtime.Kind Agentbox.Runtime.MountOptions Agentbox.Runtime.Spec
  Agentbox.SshSigning.GitConfig Agentbox.SshSigning.SigningKey Agentbox.Workspace.Identity
  Agentbox.Session.Record Agentbox.Session.Target
  Agentbox.Commands.CodexAttachAuth Agentbox.Commands.ContainerCleanup
  Agentbox.Commands.ContainerLaunch Agentbox.Commands.DetachedServer Agentbox.Commands.HostCalls
  Agentbox.Commands.LaunchLabels Agentbox.Commands.Quiet Agentbox.Commands.Restart
  Agentbox.Commands.RestartSafety Agentbox.Commands.RuntimeCommand
  Agentbox.Commands.SingleServer Agentbox.Commands.Start Agentbox.Commands.WorkspaceFlow
  Agentbox.Commands.World Agentbox.Commands.Obliging
open Agentbox.SshSigning.HostPassthrough (GitIdentityPassthrough waylandPassthrough
  knownHostsPassthrough detectCommitSigning defaultEnv_launchRunSpec combine)
open Agentbox.SshSigning

/-! ### Names -/

/-- The keys of the map can be said on a command line. -/
def AllNames (m : LabelMap) : Prop := ∀ name ∈ m, isName name = true

theorem allNames_empty : AllNames ∅ := fun _ hname => absurd hname Std.ExtTreeMap.not_mem_empty

theorem AllNames.insert {m : LabelMap} (h : AllNames m) (name value : String)
    (hname : isName name = true) : AllNames (m.insert name value) := by
  intro other hother
  rcases Std.ExtTreeMap.mem_insert.1 hother with heq | hmem
  · rw [← Std.LawfulEqCmp.compare_eq_iff_eq.1 heq]
    exact hname
  · exact h other hmem

theorem allNames_ofList {l : List (String × String)} (h : ∀ e ∈ l, isName e.1 = true) :
    AllNames (.ofList l) := by
  intro name hname
  rw [Std.ExtTreeMap.mem_ofList, List.contains_iff_mem] at hname
  obtain ⟨e, he, rfl⟩ := List.mem_map.1 hname
  exact h e he

theorem AllNames.union {m m' : LabelMap} (h : AllNames m) (h' : AllNames m') :
    AllNames (m ∪ m') := by
  intro name hname
  rcases Std.ExtTreeMap.mem_union_iff.1 hname with hmem | hmem
  · exact h name hmem
  · exact h' name hmem

/-! ### Labels -/

theorem allNames_serverLabels (input : ManagedSessionLabelInput) :
    AllNames (runtimeServerContainerLabels input) := by
  refine allNames_ofList ?_
  simp only [List.forall_mem_cons]
  exact ⟨by decide, by decide, by decide, by decide, by decide, by decide, by decide, by decide,
    by decide, by simp⟩

theorem allNames_managedSessionLabels (input : ManagedSessionLabelInput) :
    AllNames (managedSessionLabels input) := by
  have hlabels := (((allNames_serverLabels input).insert LABEL_MANAGED LABEL_MANAGED_VALUE
    (by decide)).insert LABEL_CONTAINER_KIND LABEL_CONTAINER_KIND_MANAGED_SESSION_VALUE
    (by decide)).insert LABEL_SCHEMA LABEL_SCHEMA_VALUE (by decide)
  unfold managedSessionLabels
  split_ifs
  · exact hlabels
  · exact hlabels.insert LABEL_SERVER_ARGS _ (by decide)

theorem allNames_transientRunLabels (input : ManagedSessionLabelInput) :
    AllNames (transientRunLabels input) :=
  (allNames_serverLabels input).insert LABEL_CONTAINER_KIND _ (by decide)

section

variable {request : RuntimeLaunchRequest} {preparation : ContainerLaunchPreparation}
  {invocation : RuntimeInvocation} {passthrough : Passthrough}

theorem allNames_builtSpec :
    AllNames (builtSpec request preparation invocation passthrough).create.labels := by
  rcases hm : request.policy.runMode with _ | _ | _
  · rw [builtSpec_labels_managed hm]
    exact allNames_managedSessionLabels _
  · rw [builtSpec_labels_transient hm]
    exact allNames_transientRunLabels _
  · have hnone : (builtSpec request preparation invocation passthrough).create.labels = ∅ := by
      unfold builtSpec runSpec createSpec
      rw [hm]
      rfl
    rw [hnone]
    exact allNames_empty

theorem isName_versionLabel (runtime : RuntimeKind) :
    isName (runtimePackageVersionLabel runtime) = true := by
  cases runtime <;> decide

theorem allNames_labels :
    AllNames (launchRunSpec request preparation invocation passthrough).create.labels := by
  have hrecorded : AllNames (recordRuntimeImageVersion request.runtime
      preparation.runtimeImageVersion request.policy
      (builtSpec request preparation invocation passthrough)).create.labels := by
    unfold recordRuntimeImageVersion
    split
    · exact allNames_builtSpec.insert _ _ (isName_versionLabel _)
    · exact allNames_builtSpec
  rw [launchRunSpec_eq, recordManagedResourceLimits]
  split_ifs
  · exact (hrecorded.insert LABEL_RESOURCE_LIMIT_CPUS _ (by decide)).insert
      LABEL_RESOURCE_LIMIT_MEMORY _ (by decide)
  · exact hrecorded

theorem image_launchRunSpec :
    (launchRunSpec request preparation invocation passthrough).create.image =
      defaultImage request.runtime := by
  have hrecorded : (recordRuntimeImageVersion request.runtime preparation.runtimeImageVersion
      request.policy (builtSpec request preparation invocation passthrough)).create.image =
        defaultImage request.runtime := by
    unfold recordRuntimeImageVersion
    split <;> rfl
  rw [launchRunSpec_eq, recordManagedResourceLimits]
  split_ifs
  · exact hrecorded
  · exact hrecorded

theorem isOperand_defaultImage (runtime : RuntimeKind) : IsOperand (defaultImage runtime) := by
  cases runtime <;> decide

end

/-! ### Variables -/

theorem allNames_defaultEnv : ∀ runtime : RuntimeKind, AllNames (defaultEnv runtime)
  | .opencode => allNames_ofList (by decide)
  | .codex => allNames_empty

theorem allNames_runtimeMountsFor {snapshot : PreflightSnapshot} {runtime : RuntimeKind}
    {result : RuntimeHostStatePreflight} : ∀ (specs : List RuntimeHostStateMount)
    (preflight : RuntimeHostStatePreflight), AllNames preflight.environment →
      (∀ spec ∈ specs, ∀ env, spec.containerEnvironment = some env → env.name = CODEX_HOME_ENV) →
        runtimeMountsFor snapshot runtime specs preflight = .ok result → AllNames result.environment
  | [], preflight, hnames, _, h => by
    obtain rfl := Except.ok.inj h
    exact hnames
  | spec :: specs, preflight, hnames, hspecs, h => by
    obtain ⟨state, mount, environment, -, hvalidate, hrest⟩ := runtimeMountsFor_cons_ok h
    obtain ⟨source, -, -, -, rfl⟩ := validate_ok hvalidate
    refine allNames_runtimeMountsFor specs _ ?_
      (fun spec' hspec' => hspecs spec' (List.mem_cons_of_mem _ hspec')) hrest
    simp only [RuntimeHostStateMount.containerEnvironmentFor,
      RuntimeHostStateContainerEnvironment.entryFor]
    rcases henv : spec.containerEnvironment with _ | env
    · exact hnames
    · have hcodex := hspecs spec List.mem_cons_self env henv
      rw [Option.bind_some]
      split_ifs
      · exact hnames.insert env.name _ (by rw [hcodex]; decide)
      · exact hnames

/-- The report of a check sets no variable but `CODEX_HOME`. -/
theorem allNames_runtimeEnvironment {snapshot : PreflightSnapshot} {runtime : RuntimeKind}
    {runMode : RuntimeRunMode} {report : PreflightReport}
    (h : checkHostPrerequisitesWithSnapshot snapshot runtime runMode = .ok report) :
    AllNames report.runtimeEnvironment := by
  obtain ⟨client, -, hmounts⟩ := checkHostPrerequisites_ok h
  exact allNames_runtimeMountsFor _ _ allNames_empty
    (fun spec hspec env henv => containerEnvironment_of_mem hspec henv) hmounts

theorem isName_append_repr {stem : String} (h : isName stem = true) (i : Nat) :
    isName (stem ++ Nat.repr i) = true := by
  obtain ⟨hne, hall⟩ := isName_iff.1 h
  refine isName_iff.2 ⟨fun hempty => hne ?_, fun c hc => ?_⟩
  · have hlist := congrArg String.toList hempty
    rw [String.toList_append] at hlist
    exact String.toList_inj.1 (List.append_eq_nil_iff.1 hlist).1
  · rw [String.toList_append, List.mem_append] at hc
    rcases hc with hc | hc
    · exact hall c hc
    · rw [Nat.toList_repr] at hc
      have hdigit := Nat.isDigit_of_mem_toDigits (by decide) (by decide) hc
      refine ⟨?_, ?_, ?_⟩ <;> rintro rfl <;> revert hdigit <;> decide

theorem allNames_appendGitConfigEntries : ∀ (entries : List (String × String)) (i : Nat)
    {env : LabelMap}, AllNames env → AllNames (appendGitConfigEntries i entries env)
  | [], _, _, h => h
  | (key, value) :: entries, i, env, h =>
    allNames_appendGitConfigEntries entries (i + 1)
      ((h.insert _ key (isName_append_repr (by decide) i)).insert _ value
        (isName_append_repr (by decide) i))

theorem allNames_appendGitConfigEnv {env : LabelMap} (h : AllNames env)
    (entries : List (String × String)) : AllNames (appendGitConfigEnv env entries) := by
  unfold appendGitConfigEnv
  split_ifs
  · exact h
  · exact allNames_appendGitConfigEntries entries 0 (h.insert GIT_CONFIG_COUNT_ENV _ (by decide))

theorem allNames_gitIdentityEnv : ∀ (entries : List (String × String)) {env : LabelMap},
    AllNames env → AllNames (appendAgentboxGitIdentityEnv env entries)
  | [], _, h => h
  | e :: entries, env, h => by
    rw [appendAgentboxGitIdentityEnv, List.foldl_cons]
    refine allNames_gitIdentityEnv entries ?_
    split_ifs
    · exact h.insert AGENTBOX_GIT_IDENTITY_NAME_ENV _ (by decide)
    · exact h.insert AGENTBOX_GIT_IDENTITY_EMAIL_ENV _ (by decide)
    · exact h

theorem allNames_detectPassthrough (host : PassthroughHost) (gitRoot : Utf8Path)
    (gitIdentity : GitIdentityPassthrough) :
    AllNames (HostPassthrough.detectPassthrough host gitRoot gitIdentity).environment := by
  have hwayland : AllNames (waylandPassthrough host).environment := by
    unfold waylandPassthrough
    split
    · exact allNames_ofList (by decide)
    · exact allNames_empty
  have hknown : AllNames (knownHostsPassthrough host gitRoot).environment := by
    unfold knownHostsPassthrough
    split
    · exact allNames_ofList (by decide)
    · exact allNames_empty
  have hsigning : AllNames
      (detectCommitSigning host gitRoot gitIdentity).passthrough.environment := by
    unfold detectCommitSigning
    have hidentity := fun entries => allNames_gitIdentityEnv entries allNames_empty
    split
    · exact allNames_appendGitConfigEnv (hidentity _) _
    · exact allNames_appendGitConfigEnv ((hidentity _).insert _ _ (by decide)) _
  unfold HostPassthrough.detectPassthrough combine
  refine (hwayland.union hsigning).union ?_
  split_ifs
  · exact hknown
  · exact allNames_empty

/-! ### What is launched -/

/-- Of the specification only mounts can be lost on the command line. -/
structure IsNamed (spec : RuntimeRunSpec) : Prop where
  image : IsOperand spec.create.image
  labels : AllNames spec.create.labels
  env : AllNames spec.create.defaultEnv

theorem IsNamed.isSayable_iff {spec : RuntimeRunSpec} (h : IsNamed spec) :
    IsSayable spec ↔ ∀ mount ∈ spec.create.mounts, IsRenderable mount :=
  ⟨IsSayable.mounts, fun hmounts => ⟨h.image, h.labels, hmounts, h.env⟩⟩

theorem isNamed_launchRunSpec {request : RuntimeLaunchRequest}
    {preparation : ContainerLaunchPreparation} {passthrough : Passthrough}
    (hreport : AllNames preparation.preflight.runtimeEnvironment)
    (hpassthrough : AllNames passthrough.environment) (invocation : RuntimeInvocation) :
    IsNamed (launchRunSpec request preparation invocation passthrough) where
  image := image_launchRunSpec ▸ isOperand_defaultImage request.runtime
  labels := allNames_labels
  env := by
    rw [defaultEnv_launchRunSpec]
    exact ((allNames_defaultEnv _).union hreport).union hpassthrough

/-- The answers of the host are computed by the checks of the preflight and by the passthrough. -/
def IsComputed : (o : HostOp) → o.Ret → Prop
  | .checkHostPrerequisites runtime mode, r => ∀ report, r = .ok report →
    ∃ snapshot, checkHostPrerequisitesWithSnapshot snapshot runtime mode = .ok report
  | .detectPassthrough gitRoot, r =>
    ∃ host gitIdentity, r = HostPassthrough.detectPassthrough host gitRoot gitIdentity
  | _, _ => True

/-- A server that is started has a specification with names that can be said. -/
def Says (o : HostOp) : Prop := ∀ name spec, o = .runDetached name spec → IsNamed spec

section

variable {σ α β : Type} {M : Machine HostOps σ}

theorem says_of_not_launches {o : HostOp} (h : launches o = false) : Says o := by
  rintro name spec rfl
  cases h

/-- The part of a command starts no other servers. -/
def SaysAll (M : Machine HostOps σ) (p : Command α) : Prop :=
  ∀ s, wp M (fun _ o => Says o) p (fun _ _ => True) s

theorem saysAll_of_startsNone {p : Command α} (h : StartsNone p) : SaysAll M p := fun _ =>
  wp_mono (wp_of_always (A := fun o : HostOps.Op => launches o = false) (I := fun _ => True)
    (fun _ _ ho _ => says_of_not_launches ho) (fun _ _ _ _ _ _ _ => trivial) h trivial)
    fun _ _ _ => trivial

theorem saysAll_of_isReading {p : Command α} (h : IsReading p) : SaysAll M p :=
  saysAll_of_startsNone (startsNone_of_isQuiet h.quiet)

theorem SaysAll.bind {p : Command α} {f : α → Command β} (hp : SaysAll M p)
    (hf : ∀ a, SaysAll M (f a)) : SaysAll M (p.bind f) := by
  refine fun s => (wp_bind _ _ _ _).2 (wp_mono (hp s) ?_)
  rintro (e | a) s1 -
  · trivial
  · exact hf a s1

theorem SaysAll.attempt {p : Command α} (hp : SaysAll M p) : SaysAll M p.attempt := fun s =>
  (wp_attempt _ _ _).2 (wp_mono (hp s) fun _ _ _ => trivial)

theorem SaysAll.withGuard {p : Command α} (hp : SaysAll M p) (digest64 : String) :
    SaysAll M (withGuard digest64 p) := by
  have hlock : StartsNone (lockGuard digest64) := ⟨rfl, only_ofExcept⟩
  have hunlock : StartsNone (unlock digest64) := ⟨rfl, fun _ => only_done _⟩
  exact (saysAll_of_startsNone hlock).bind fun _ => hp.attempt.bind fun result =>
    (saysAll_of_startsNone hunlock).bind fun _ => saysAll_of_startsNone (only_ofExcept result)

theorem saysAll_launchesOnce {p : Command α} {commandName name : String} {spec : RuntimeRunSpec}
    (hp : LaunchesOnce (fun o => launches o = false) commandName name spec p)
    (hspec : IsNamed spec) : SaysAll M p := by
  obtain ⟨k, rfl, hk⟩ := hp
  have hrun : SaysAll M (runDetached name spec) := fun s => by
    refine (wp_call _ _ _).2 ⟨?_, fun r s1 _ => (wp_ofExcept _ _).2 trivial⟩
    rintro _ _ ⟨⟩
    exact hspec
  exact (saysAll_of_isReading (reading_installInterrupt _)).bind fun _ => hrun.attempt.bind
    fun result => saysAll_of_startsNone (hk result)

/-- After the check of the host a preparation keeps its report. -/
theorem keeps_preflight (request : RuntimeLaunchRequest) :
    ∃ rest : PreflightReport → Command ContainerLaunchPreparation,
      prepareContainerLaunchForWorkspace request =
        (checkHostPrerequisites request.runtime request.policy.runMode).bind rest ∧
      ∀ preflight, Always (S := HostOps) (fun o => launches o = false)
        (fun r => ∀ preparation, r = .ok preparation → preparation.preflight = preflight)
        (rest preflight) := by
  refine ⟨_, rfl, fun preflight => ?_⟩
  have hread : ∀ {α : Type} {p : Command α}, IsReading p →
      Always (S := HostOps) (fun o => launches o = false) (fun _ => True) p :=
    fun h => startsNone_of_isQuiet h.quiet
  have himage : ∀ devEnv, Always (S := HostOps) (fun o => launches o = false)
      (fun r => ∀ preparation, r = .ok preparation → preparation.preflight = preflight)
      ((ensureDefaultRuntimeImage request.runtime request.workspace.canonicalGitRoot).bind
        fun version => .done (⟨preflight, devEnv, version⟩ : ContainerLaunchPreparation)) := by
    intro devEnv
    refine always_bind (hread (reading_ensureDefaultRuntimeImage _ _))
      (fun _ _ _ h => by cases h) fun version _ preparation h => ?_
    obtain rfl := Except.ok.inj h
    rfl
  refine always_bind (hread (reading_ensureRequiredResourcesAbsent _ _))
    (fun _ _ _ h => by cases h) fun _ _ => always_bind (hread (reading_resolveDevEnvironment _ _ _))
    (fun _ _ _ h => by cases h) fun devEnv _ => ?_
  split_ifs
  · exact always_bind (hread (reading_ensureHostRuntimeClientAvailable _))
      (fun _ _ _ h => by cases h) fun _ _ => himage devEnv
  · exact himage devEnv

theorem startsNone_stopExistingSession (session : SessionRecord) :
    StartsNone (stopExistingSession session) := by
  refine .bind (startsNone_stopAndVerify _) fun cleanup => ?_
  split
  · exact only_fail _
  · exact only_done _

variable (hM : ∀ s o r s', M.step s o r s' → IsComputed o r)
include hM

theorem wp_prepareContainerLaunch (request : RuntimeLaunchRequest) (s : σ) :
    wp M (fun _ o => Says o) (prepareContainerLaunchForWorkspace request)
      (fun r _ => ∀ preparation, r = .ok preparation →
        AllNames preparation.preflight.runtimeEnvironment) s := by
  obtain ⟨rest, heq, hrest⟩ := keeps_preflight request
  rw [heq]
  refine (wp_bind _ _ _ _).2 ((wp_call _ _ _).2 ⟨says_of_not_launches rfl, fun r s1 hstep =>
    (wp_ofExcept _ _).2 ?_⟩)
  have hcomputed := hM _ _ _ _ hstep
  rcases r with e | report
  · exact fun _ h => by cases h
  obtain ⟨snapshot, hreport⟩ := hcomputed report rfl
  refine wp_mono (wp_of_always (A := fun o : HostOps.Op => launches o = false) (I := fun _ => True)
    (fun _ _ ho _ => says_of_not_launches ho) (fun _ _ _ _ _ _ _ => trivial) (hrest report) trivial)
    ?_
  rintro r s2 ⟨hkeeps, -⟩ preparation hr
  rw [hkeeps preparation hr]
  exact allNames_runtimeEnvironment hreport

/-- What is done with a preparation. -/
theorem saysAll_prepareRuntimeLaunch {request : RuntimeLaunchRequest}
    {f : RuntimeLaunchPreparation → Command β}
    (hf : ∀ prep, IsNamed prep.runSpec → SaysAll M (f prep)) :
    SaysAll M ((prepareRuntimeLaunch request).bind f) := by
  have htoken : StartsNone (prepareCodexAttachToken request.runtime request.policy.runMode
      request.workspace) :=
    Only.weaken (keepsContainers_prepareCodexAttachToken _ _ _) fun _ =>
      launches_of_keepsContainers
  intro s
  refine (wp_bind _ _ _ _).2 ?_
  refine (wp_bind _ _ _ _).2 (wp_mono (wp_prepareContainerLaunch hM request s) ?_)
  rintro (e | preparation) s1 hreport
  · trivial
  refine (wp_bind _ _ _ _).2 (wp_mono (saysAll_of_startsNone htoken s1) ?_)
  rintro (e | token) s2 -
  · trivial
  refine (wp_bind _ _ _ _).2 ((wp_ofExcept _ _).2 ?_)
  rcases serverRuntimeCommand request.runtime request.workspace.canonicalTarget preparation.devEnv
    token request.serverArgs with e | invocation
  · trivial
  refine (wp_bind _ _ _ _).2 ((wp_call _ _ _).2 ⟨says_of_not_launches rfl,
    fun passthrough s3 hstep => ?_⟩)
  obtain ⟨host, gitIdentity, rfl⟩ := hM _ _ _ _ hstep
  exact hf _ (isNamed_launchRunSpec (hreport preparation rfl)
    (allNames_detectPassthrough host _ gitIdentity) invocation) s3

/-! ### The commands -/

theorem saysAll_startLocked (args : StartArgs) (limits : ResourceLimits)
    (workspace : WorkspaceIdentity) : SaysAll M (startLocked args limits workspace) :=
  saysAll_prepareRuntimeLaunch hM fun _ hspec =>
    (saysAll_of_isReading (reading_volumeExists _)).bind fun existed =>
      saysAll_launchesOnce (launchesOnce_executeManagedServerLaunch
        (fun _ ho => launches_of_isReading ho) (startsNone_startPolicy existed) _ _) hspec

theorem saysAll_runLocked (args : RunArgs) (limits : ResourceLimits)
    (workspace : WorkspaceIdentity) : SaysAll M (runLocked args limits workspace) :=
  saysAll_prepareRuntimeLaunch hM fun _ hspec =>
    saysAll_launchesOnce (launchesOnce_executeTransientRunLaunch _ _) hspec

theorem saysAll_restartSession (args : RestartArgs) (gitRoot : Utf8Path) (session : SessionRecord) :
    SaysAll M (restartSession args gitRoot session) := by
  refine (saysAll_of_startsNone (only_ofExcept _)).bind fun restart =>
    (saysAll_of_isReading (reading_restartLaunchWorkspace _ _ _)).bind fun workspace =>
    (saysAll_of_isReading (reading_restartResourceLimits _ _)).bind fun limits =>
    saysAll_prepareRuntimeLaunch hM fun prep hspec =>
    (saysAll_of_startsNone (startsNone_stopExistingSession _)).bind fun _ => ?_
  exact saysAll_launchesOnce (launchesOnce_executeManagedServerLaunch
    (fun _ ho => launches_of_isReading ho)
    (startsNone_of_isQuiet (quiet_restartPolicy_checkInterrupted _ _)) _ _) hspec

theorem saysAll_program : ∀ command : ServerCommand, SaysAll M command.program
  | .start args => (saysAll_of_isReading reading_loadConfig).bind fun _ =>
      (saysAll_of_isReading (reading_resolveWorkspace _)).bind fun _ =>
        (saysAll_startLocked hM args _ _).withGuard _
  | .run args => (saysAll_of_isReading reading_loadConfig).bind fun _ =>
      (saysAll_of_isReading (reading_resolveWorkspace _)).bind fun _ =>
        (saysAll_runLocked hM args _ _).withGuard _
  | .restart args => (saysAll_of_isReading (reading_resolveRestart _)).bind fun plan =>
      SaysAll.withGuard ((saysAll_of_isReading
        (reading_selectSessionCandidate plan plan.lockGitRoot)).bind fun session =>
          saysAll_restartSession hM args plan.lockGitRoot session) _

/-- **Podman is asked for what was specified.** Whenever a command starts a server, the arguments of
`podman run` are read as its specification says, exactly if the paths of its mounts can be rendered.
Where they cannot, only the mounts are read otherwise, or the command line is refused: nothing else
of the specification is ever lost, and no value is taken for an option. -/
theorem launch_args_faithful (command : ServerCommand) (s s' : σ) (t : List (Event HostOps σ))
    (res : Except Error Unit) (h : Exec M command.program s t s' res) :
    ∀ e ∈ t, ∀ name spec, e.op = HostOp.runDetached name spec → ∀ hostGid,
      (readRun (runDetachedArgs name spec hostGid) =
          some (requestOf detachedFlags name spec hostGid) ↔
        ∀ mount ∈ spec.create.mounts, IsRenderable mount) ∧
      readRun (runDetachedArgs name spec hostGid) =
        (spec.create.mounts.mapM fun mount => parseMount (renderMount mount)).map fun mounts =>
          { requestOf detachedFlags name spec hostGid with mounts := mounts } := by
  intro e he name spec hop hostGid
  have hspec : IsNamed spec := (h.of_wp (saysAll_program hM command s)).2 e he name spec hop
  exact ⟨(readRun_runDetachedArgs_iff name spec hostGid).trans hspec.isSayable_iff,
    readRun_runDetachedArgs name spec hostGid hspec.image hspec.labels hspec.env⟩

end

/-- The answers of a host that meets every prerequisite and has an agent for signatures. -/
def obligeComputed (w : WorldState) : (o : HostOp) → o.Ret × WorldState
  | .checkHostPrerequisites runtime mode =>
    (checkHostPrerequisitesWithSnapshot HostPassthrough.opencodeSnapshot runtime mode, w)
  | .detectPassthrough gitRoot =>
    (HostPassthrough.detectPassthrough HostPassthrough.signingHost gitRoot .host, w)
  | o => oblige w o

def computedMachine : Machine HostOps WorldState where
  step w o r w' := r = (obligeComputed w o).1 ∧ w' = (obligeComputed w o).2

theorem isComputed_of_step : ∀ w o r w', computedMachine.step w o r w' → IsComputed o r
  | w, o, r, w', h => by
    cases o with
    | checkHostPrerequisites runtime mode =>
      intro report hr
      exact ⟨_, h.1.symm.trans hr⟩
    | detectPassthrough gitRoot => exact ⟨_, _, h.1⟩
    | _ => trivial

/-- The demo server is restarted. -/
theorem launch_args_faithful_demo :
    let t := ((restartTarget demoRestart).run obligeComputed demoRunning).2.2
    (t.any fun e => launches e.op) = true ∧
      ∀ e ∈ t, ∀ name spec, e.op = HostOp.runDetached name spec →
        ∀ hostGid, readRun (runDetachedArgs name spec hostGid) =
            some (requestOf detachedFlags name spec hostGid) ↔
          ∀ mount ∈ spec.create.mounts, IsRenderable mount :=
  ⟨by decide +kernel, fun e he name spec hop hostGid =>
    (launch_args_faithful isComputed_of_step (.restart demoRestart) demoRunning _ _ _
      (Exec.of_run (M := computedMachine) (fun _ _ => ⟨rfl, rfl⟩) (restartTarget demoRestart)
        demoRunning) e he name spec hop hostGid).1⟩

end Agentbox.Commands.LaunchArgs
