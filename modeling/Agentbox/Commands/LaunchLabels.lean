import Agentbox.Commands.ContainerLaunch
import Agentbox.Metadata.DefaultImage

/-! # The labels of a launch

Which labels the specification of a server has, and which of them a container has that is started
with it: the image's labels are below them. -/

namespace Agentbox.Commands.LaunchLabels

open Agentbox.Base.Path Agentbox.Base.Errors Agentbox.Config.Limits Agentbox.Lib.Entries
  Agentbox.Lib.Json Agentbox.Lib.Program Agentbox.Metadata.Labels Agentbox.Metadata.Session
  Agentbox.Metadata.DefaultImage Agentbox.Runtime.Kind Agentbox.Runtime.Spec
  Agentbox.Workspace.Identity Agentbox.Commands.HostCalls Agentbox.Commands.CodexAttachAuth
  Agentbox.Commands.RuntimeCommand Agentbox.Commands.ContainerLaunch

/-! ### The specification -/

/-- The labels that every server has. -/
def serverEntries (input : ManagedSessionLabelInput) : List (String × String) :=
  [(LABEL_GIT_ROOT, input.canonicalGitRoot),
   (LABEL_GIT_ROOT_HASH, input.gitRootHash),
   (LABEL_RUNTIME, input.runtime.asStr),
   (LABEL_IMAGE, input.image),
   (LABEL_LAUNCH_DIRECTORY, input.launchDirectory),
   (LABEL_LOGICAL_NAME, input.logicalName),
   (LABEL_ATTACH_SCHEME, input.runtime.attachSpec.scheme),
   (LABEL_CONTAINER_PORT, s!"{input.runtime.attachSpec.containerPort}"),
   (LABEL_CONTAINER_LISTEN_IP, input.runtime.attachSpec.containerListenIp)]

def markerEntries : List (String × String) :=
  [(LABEL_MANAGED, LABEL_MANAGED_VALUE),
   (LABEL_CONTAINER_KIND, LABEL_CONTAINER_KIND_MANAGED_SESSION_VALUE),
   (LABEL_SCHEMA, LABEL_SCHEMA_VALUE)]

def limitEntries (limits : ResourceLimits) : List (String × String) :=
  [(LABEL_RESOURCE_LIMIT_CPUS, limits.storedOrZero.cpus),
   (LABEL_RESOURCE_LIMIT_MEMORY, limits.storedOrZero.memory)]

/-- The entry of the server arguments, when there are any. -/
def argEntries (serverArgs : List String) : List (String × String) :=
  if serverArgs = [] then [] else [(LABEL_SERVER_ARGS, encodeStrings serverArgs)]

/-- The names of the labels that every server has. -/
def SERVER_LABELS : List String :=
  [LABEL_GIT_ROOT, LABEL_GIT_ROOT_HASH, LABEL_RUNTIME, LABEL_IMAGE, LABEL_LAUNCH_DIRECTORY,
    LABEL_LOGICAL_NAME, LABEL_ATTACH_SCHEME, LABEL_CONTAINER_PORT, LABEL_CONTAINER_LISTEN_IP]

theorem version_label_not_mem (runtime : RuntimeKind) :
    runtimePackageVersionLabel runtime ∉ SERVER_LABELS ++ CONTAINER_LABELS := by
  cases runtime <;> decide

theorem holds_runtimeServerContainerLabels (input : ManagedSessionLabelInput) :
    Holds (runtimeServerContainerLabels input) (serverEntries input) :=
  holds_ofList (show SERVER_LABELS.Nodup by decide)

theorem lacks_runtimeServerContainerLabels (input : ManagedSessionLabelInput) :
    Lacks (runtimeServerContainerLabels input) CONTAINER_LABELS :=
  lacks_ofList (show ∀ name ∈ CONTAINER_LABELS, name ∉ SERVER_LABELS by decide)

theorem holds_markers (input : ManagedSessionLabelInput) :
    Holds ((runtimeServerContainerLabels input).insert LABEL_MANAGED LABEL_MANAGED_VALUE
      |>.insert LABEL_CONTAINER_KIND LABEL_CONTAINER_KIND_MANAGED_SESSION_VALUE
      |>.insert LABEL_SCHEMA LABEL_SCHEMA_VALUE) (markerEntries.reverse ++ serverEntries input) :=
  (((holds_runtimeServerContainerLabels input).insert_cons
      (show LABEL_MANAGED ∉ SERVER_LABELS by decide) _).insert_cons
      (show LABEL_CONTAINER_KIND ∉ LABEL_MANAGED :: SERVER_LABELS by decide) _).insert_cons
      (show LABEL_SCHEMA ∉ LABEL_CONTAINER_KIND :: LABEL_MANAGED :: SERVER_LABELS by decide) _

theorem holds_managedSessionLabels (input : ManagedSessionLabelInput) :
    Holds (managedSessionLabels input)
      (argEntries input.serverArgs ++ (markerEntries.reverse ++ serverEntries input)) := by
  unfold managedSessionLabels argEntries
  by_cases hargs : input.serverArgs = []
  · rw [if_pos hargs, if_pos hargs]
    exact holds_markers input
  · rw [if_neg hargs, if_neg hargs]
    exact (holds_markers input).insert_cons (show LABEL_SERVER_ARGS ∉
      LABEL_SCHEMA :: LABEL_CONTAINER_KIND :: LABEL_MANAGED :: SERVER_LABELS by decide) _

theorem lacks_managedSessionLabels {input : ManagedSessionLabelInput} (h : input.serverArgs = []) :
    Lacks (managedSessionLabels input) [LABEL_SERVER_ARGS] := by
  have hlacks : Lacks (runtimeServerContainerLabels input) [LABEL_SERVER_ARGS] :=
    (lacks_runtimeServerContainerLabels input).of_subset (by decide)
  unfold managedSessionLabels
  rw [if_pos h]
  exact ((hlacks.insert (by decide)).insert (by decide)).insert (by decide)

variable {request : RuntimeLaunchRequest} {preparation : ContainerLaunchPreparation}
  {invocation : RuntimeInvocation} {passthrough : Passthrough}

def labelInput (request : RuntimeLaunchRequest) : ManagedSessionLabelInput :=
  .fromWorkspace request.workspace (defaultImage request.runtime) request.runtime request.serverArgs

/-- What the labels of a server say. -/
structure ServerLabels (request : RuntimeLaunchRequest) (m : LabelMap) : Prop where
  server : Holds m (serverEntries (labelInput request))
  markers : request.policy.runMode = .managedSession → Holds m markerEntries
  limits : request.policy.runMode = .managedSession → Holds m (limitEntries request.resourceLimits)
  args : request.policy.runMode = .managedSession → Holds m (argEntries request.serverArgs)
  noArgs : request.serverArgs = [] → Lacks m [LABEL_SERVER_ARGS]
  transient : request.policy.runMode = .transientServer →
    Holds m [(LABEL_CONTAINER_KIND, LABEL_CONTAINER_KIND_TRANSIENT_RUN_VALUE)]
  noLimits : request.policy.runMode = .transientServer →
    Lacks m [LABEL_MANAGED, LABEL_RESOURCE_LIMIT_CPUS, LABEL_RESOURCE_LIMIT_MEMORY]

/-- The labels of a container are those of its image where the specification has none. -/
theorem ServerLabels.union {m : LabelMap} (h : ServerLabels request m) (image : RuntimeImage) :
    ServerLabels request (image.labels ∪ m) where
  server := h.server.union _
  markers hm := (h.markers hm).union _
  limits hm := (h.limits hm).union _
  args hm := (h.args hm).union _
  noArgs hargs := Lacks.union (fun name hname => lacks_labels image name (by
    rw [List.mem_singleton.1 hname]
    decide)) (h.noArgs hargs)
  transient hm := (h.transient hm).union _
  noLimits hm := Lacks.union (fun name hname => lacks_labels image name (by
    revert name
    decide)) (h.noLimits hm)

/-! ### What is recorded after the image is known -/

section
variable {runtime : RuntimeKind} {version : Option String} {policy : RuntimeLaunchPolicy}
  {spec : RuntimeRunSpec}

theorem recordRuntimeImageVersion_labels (runtime : RuntimeKind) (version : Option String)
    (policy : RuntimeLaunchPolicy) (spec : RuntimeRunSpec) :
    (recordRuntimeImageVersion runtime version policy spec).create.labels = spec.create.labels ∨
      ∃ v, (recordRuntimeImageVersion runtime version policy spec).create.labels =
        spec.create.labels.insert (runtimePackageVersionLabel runtime) v := by
  unfold recordRuntimeImageVersion
  split
  · exact .inr ⟨_, rfl⟩
  · exact .inl rfl

/-- A version label does not matter to the others. -/
theorem holds_recordRuntimeImageVersion {l : List (String × String)}
    (h : Holds spec.create.labels l) (hl : l.map Prod.fst ⊆ SERVER_LABELS ++ CONTAINER_LABELS) :
    Holds (recordRuntimeImageVersion runtime version policy spec).create.labels l := by
  obtain heq | ⟨v, heq⟩ := recordRuntimeImageVersion_labels runtime version policy spec
  · rw [heq]
    exact h
  · rw [heq]
    exact h.insert fun hname => version_label_not_mem runtime (hl hname)

theorem lacks_recordRuntimeImageVersion {names : List String} (h : Lacks spec.create.labels names)
    (hnames : names ⊆ CONTAINER_LABELS) :
    Lacks (recordRuntimeImageVersion runtime version policy spec).create.labels names := by
  obtain heq | ⟨v, heq⟩ := recordRuntimeImageVersion_labels runtime version policy spec
  · rw [heq]
    exact h
  · rw [heq]
    exact h.insert fun hname => version_label_not_mem runtime
      (List.mem_append_right _ (hnames hname))

end

def MANAGED_LABELS : List String :=
  [LABEL_SERVER_ARGS, LABEL_SCHEMA, LABEL_CONTAINER_KIND, LABEL_MANAGED] ++ SERVER_LABELS

theorem managed_keys (input : ManagedSessionLabelInput) :
    (argEntries input.serverArgs ++ (markerEntries.reverse ++ serverEntries input)).map Prod.fst ⊆
      MANAGED_LABELS := by
  rw [List.map_append]
  refine List.append_subset.2 ⟨fun name hname => ?_, List.subset_cons_self _ _⟩
  unfold argEntries at hname
  split_ifs at hname
  · exact absurd hname List.not_mem_nil
  · rw [List.mem_singleton.1 hname]
    exact List.mem_cons_self

/-- The specification before anything is recorded in it. -/
def builtSpec (request : RuntimeLaunchRequest) (preparation : ContainerLaunchPreparation)
    (invocation : RuntimeInvocation) (passthrough : Passthrough) : RuntimeRunSpec :=
  (((runSpec request.runtime request.policy.runMode request.workspace
    preparation.preflight.hostNixMounts preparation.preflight.runtimeMounts invocation
    request.serverArgs request.resourceLimits).extendCreateDefaultEnv
      preparation.preflight.runtimeEnvironment).addCreateMounts
        passthrough.mounts).extendCreateDefaultEnv passthrough.environment

theorem launchRunSpec_eq : launchRunSpec request preparation invocation passthrough =
    recordManagedResourceLimits request.policy (recordRuntimeImageVersion request.runtime
      preparation.runtimeImageVersion request.policy
      (builtSpec request preparation invocation passthrough)) := rfl

theorem builtSpec_labels_managed (hm : request.policy.runMode = .managedSession) :
    (builtSpec request preparation invocation passthrough).create.labels =
      managedSessionLabels (labelInput request) := by
  unfold builtSpec runSpec createSpec
  rw [hm]
  rfl

theorem builtSpec_labels_transient (hm : request.policy.runMode = .transientServer) :
    (builtSpec request preparation invocation passthrough).create.labels =
      transientRunLabels (labelInput request) := by
  unfold builtSpec runSpec createSpec
  rw [hm]
  rfl

theorem recordRuntimeImageVersion_limits (runtime : RuntimeKind) (version : Option String)
    (policy : RuntimeLaunchPolicy) (spec : RuntimeRunSpec) :
    (recordRuntimeImageVersion runtime version policy spec).create.resourceLimits =
      spec.create.resourceLimits := by
  unfold recordRuntimeImageVersion
  split <;> rfl

theorem serverLabels_managed (hm : request.policy.runMode = .managedSession) :
    ServerLabels request (launchRunSpec request preparation invocation passthrough).create.labels := by
  have hbuilt := @builtSpec_labels_managed request preparation invocation passthrough hm
  set recorded := recordRuntimeImageVersion request.runtime preparation.runtimeImageVersion
    request.policy (builtSpec request preparation invocation passthrough) with hrecorded
  have hholds : Holds recorded.create.labels (argEntries request.serverArgs ++
      (markerEntries.reverse ++ serverEntries (labelInput request))) := by
    refine holds_recordRuntimeImageVersion (hbuilt ▸ holds_managedSessionLabels _) ?_
    exact List.Subset.trans (managed_keys (labelInput request)) (by decide)
  have hlaunch : (launchRunSpec request preparation invocation passthrough).create.labels =
      (recorded.create.labels.insert LABEL_RESOURCE_LIMIT_CPUS
        request.resourceLimits.storedOrZero.cpus).insert LABEL_RESOURCE_LIMIT_MEMORY
        request.resourceLimits.storedOrZero.memory := by
    have hlimits : recorded.create.resourceLimits = request.resourceLimits :=
      recordRuntimeImageVersion_limits _ _ _ _
    rw [launchRunSpec_eq, ← hrecorded, recordManagedResourceLimits, if_pos hm, hlimits]
    rfl
  have hcpus : LABEL_RESOURCE_LIMIT_CPUS ∉ MANAGED_LABELS := by decide
  have hmemory : LABEL_RESOURCE_LIMIT_MEMORY ∉ LABEL_RESOURCE_LIMIT_CPUS :: MANAGED_LABELS := by
    decide
  have hall := (hholds.insert_cons (fun h => hcpus (managed_keys (labelInput request) h))
    request.resourceLimits.storedOrZero.cpus).insert_cons (fun h => hmemory
      (List.cons_subset_cons _ (managed_keys (labelInput request)) h))
    request.resourceLimits.storedOrZero.memory
  rw [hlaunch]
  refine ⟨hall.of_subset fun e he => ?_, fun _ => hall.of_subset fun e he => ?_,
    fun _ => hall.of_subset fun e he => ?_, fun _ => hall.of_subset fun e he => ?_,
    fun hargs => ?_, fun ht => ?_, fun ht => ?_⟩
  · exact List.mem_cons_of_mem _ (List.mem_cons_of_mem _
      (List.mem_append_right _ (List.mem_append_right _ he)))
  · exact List.mem_cons_of_mem _ (List.mem_cons_of_mem _
      (List.mem_append_right _ (List.mem_append_left _ (List.mem_reverse.2 he))))
  · rcases List.mem_pair.1 he with rfl | rfl
    · exact List.mem_cons_of_mem _ List.mem_cons_self
    · exact List.mem_cons_self
  · exact List.mem_cons_of_mem _ (List.mem_cons_of_mem _ (List.mem_append_left _ he))
  · have hrecordedLacks : Lacks recorded.create.labels [LABEL_SERVER_ARGS] :=
      lacks_recordRuntimeImageVersion (hbuilt ▸ lacks_managedSessionLabels hargs) (by decide)
    exact (hrecordedLacks.insert (by decide)).insert (by decide)
  · rw [hm] at ht
    cases ht
  · rw [hm] at ht
    cases ht

theorem serverLabels_transient (hm : request.policy.runMode = .transientServer) :
    ServerLabels request (launchRunSpec request preparation invocation passthrough).create.labels := by
  have hbuilt := @builtSpec_labels_transient request preparation invocation passthrough hm
  have hlaunch : launchRunSpec request preparation invocation passthrough =
      recordRuntimeImageVersion request.runtime preparation.runtimeImageVersion request.policy
        (builtSpec request preparation invocation passthrough) := by
    rw [launchRunSpec_eq, recordManagedResourceLimits, hm, if_neg (by decide)]
  have hkind : Holds (transientRunLabels (labelInput request))
      ((LABEL_CONTAINER_KIND, LABEL_CONTAINER_KIND_TRANSIENT_RUN_VALUE) ::
        serverEntries (labelInput request)) :=
    (holds_runtimeServerContainerLabels (labelInput request)).insert_cons
      (show LABEL_CONTAINER_KIND ∉ SERVER_LABELS by decide) _
  have hholds : Holds (launchRunSpec request preparation invocation passthrough).create.labels
      ((LABEL_CONTAINER_KIND, LABEL_CONTAINER_KIND_TRANSIENT_RUN_VALUE) ::
        serverEntries (labelInput request)) := by
    rw [hlaunch]
    refine holds_recordRuntimeImageVersion (hbuilt ▸ hkind) ?_
    exact show LABEL_CONTAINER_KIND :: SERVER_LABELS ⊆ SERVER_LABELS ++ CONTAINER_LABELS by decide
  have hlacks : ∀ names, names ⊆ CONTAINER_LABELS → LABEL_CONTAINER_KIND ∉ names →
      Lacks (launchRunSpec request preparation invocation passthrough).create.labels names := by
    intro names hnames hno
    rw [hlaunch]
    refine lacks_recordRuntimeImageVersion (hbuilt ▸ ?_) hnames
    exact ((lacks_runtimeServerContainerLabels _).of_subset hnames).insert hno
  refine ⟨?_, fun h => ?_, fun h => ?_, fun h => ?_, fun _ => hlacks _ (by decide) (by decide),
    fun _ => ?_, fun _ => hlacks _ (by decide) (by decide)⟩
  · exact hholds.of_subset (List.subset_cons_self _ _)
  · rw [hm] at h
    cases h
  · rw [hm] at h
    cases h
  · rw [hm] at h
    cases h
  · exact hholds.of_subset fun e he => List.mem_singleton.1 he ▸ List.mem_cons_self

/-- **The labels of a server.** -/
theorem serverLabels_launchRunSpec (hmode : request.policy.runMode ≠ .foreground) :
    ServerLabels request (launchRunSpec request preparation invocation passthrough).create.labels := by
  rcases hm : request.policy.runMode with _ | _ | _
  · exact serverLabels_managed hm
  · exact serverLabels_transient hm
  · exact absurd hm hmode

/-! ### Preparations -/

/-- The specification is one that `prepare_runtime_launch` makes for the request. -/
def IsPrepared (request : RuntimeLaunchRequest) (prep : RuntimeLaunchPreparation) : Prop :=
  ∃ preparation invocation passthrough,
    serverRuntimeCommand request.runtime request.workspace.canonicalTarget preparation.devEnv
      prep.codexAttachToken request.serverArgs = .ok invocation ∧
    prep.runSpec = launchRunSpec request preparation invocation passthrough

/-- Whatever the host answers. -/
theorem isPrepared_always (request : RuntimeLaunchRequest) :
    Always (fun _ => True) (fun r => ∀ prep, r = .ok prep → IsPrepared request prep)
      (prepareRuntimeLaunch request) := by
  refine always_bind (always_trivial _) (fun _ _ => nofun) fun preparation _ => ?_
  refine always_bind (always_trivial _) (fun _ _ => nofun) fun token _ => ?_
  rcases hcommand : serverRuntimeCommand request.runtime request.workspace.canonicalTarget
    preparation.devEnv token request.serverArgs with e | invocation
  · exact nofun
  · refine ⟨trivial, fun passthrough prep hprep => ?_⟩
    cases hprep
    exact ⟨preparation, invocation, passthrough, hcommand, rfl⟩

theorem isPrepared_of_exec {σ : Type} {M : Machine HostOps σ} {s s' : σ}
    {t : List (Event HostOps σ)} {prep : RuntimeLaunchPreparation}
    (h : Exec M (prepareRuntimeLaunch request) s t s' (.ok prep)) : IsPrepared request prep :=
  (h.of_always (isPrepared_always request)).1 prep rfl

theorem IsPrepared.serverLabels {prep : RuntimeLaunchPreparation} (h : IsPrepared request prep)
    (hmode : request.policy.runMode ≠ .foreground) :
    ServerLabels request prep.runSpec.create.labels := by
  obtain ⟨preparation, invocation, passthrough, -, hspec⟩ := h
  rw [hspec]
  exact serverLabels_launchRunSpec hmode

end Agentbox.Commands.LaunchLabels
