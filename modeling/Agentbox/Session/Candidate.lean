import Agentbox.Session.ConnectView
import Agentbox.Session.Restartable

/-! # What the prompts offer

`session/target_candidate.rs`: the sessions that completion and the prompts of `connect`, `restart`
and `stop` offer. `connect` accepts every session that it offers. `restart` reads labels that its
offer does not look at, and accepts a session that it offers exactly when these are well formed. -/

namespace Agentbox.Session.Candidate

open Agentbox.Base.Path Agentbox.Base.Errors Agentbox.Config.Limits Agentbox.Files.Snapshot
  Agentbox.Lib.Json Agentbox.Metadata.Labels Agentbox.Metadata.Session Agentbox.Podman.Model
  Agentbox.Podman.State Agentbox.Runtime.Kind Agentbox.Workspace.Identity Agentbox.Session.Record
  Agentbox.Session.Inspected Agentbox.Session.Discovery Agentbox.Session.Status
  Agentbox.Session.Collected Agentbox.Session.ScopedDiscovery Agentbox.Session.Views
  Agentbox.Session.Connectable
  Agentbox.Session.Restartable Agentbox.Session.ConnectView

inductive SessionTargetKind
  | connectRoot
  | restartStableId
  | stableId
  deriving DecidableEq, Repr

structure SessionTargetCandidate where
  value : String
  canonicalGitRoot : Option Utf8Path
  runtime : Option String
  status : SessionStatus

namespace SessionTargetKind

/-- What is offered for a session, if anything. -/
def value (kind : SessionTargetKind) (session : SessionRecord) : Option String :=
  match kind with
  | connectRoot =>
    if session.isConnectableCandidate then session.canonicalGitRoot.map Utf8Path.asStr else none
  | restartStableId => if session.isRestartableCandidate then session.stableId else none
  | stableId => if session.hasStableId then session.stableId else none

def candidate (kind : SessionTargetKind) (session : SessionRecord) :
    Option SessionTargetCandidate :=
  (kind.value session).map fun value =>
    ⟨value, session.canonicalGitRoot, session.metadata.runtime, session.status⟩

def candidates (kind : SessionTargetKind) (sessions : List SessionRecord) :
    List SessionTargetCandidate :=
  sessions.filterMap kind.candidate

def matchesSession (kind : SessionTargetKind) (session : SessionRecord) : Bool :=
  (kind.candidate session).isSome

end SessionTargetKind

theorem matches_connectRoot (session : SessionRecord) :
    SessionTargetKind.connectRoot.matchesSession session = session.isConnectableCandidate := by
  unfold SessionTargetKind.matchesSession SessionTargetKind.candidate SessionTargetKind.value
  by_cases h : session.isConnectableCandidate = true
  · have hroot : session.canonicalGitRoot.isSome = true := by
      simp only [SessionRecord.isConnectableCandidate, Bool.and_eq_true] at h
      exact h.2
    simp [h, hroot]
  · simp [h]

theorem matches_restartStableId (session : SessionRecord) :
    SessionTargetKind.restartStableId.matchesSession session = session.isRestartableCandidate := by
  unfold SessionTargetKind.matchesSession SessionTargetKind.candidate SessionTargetKind.value
  by_cases h : session.isRestartableCandidate = true
  · have hid : session.stableId.isSome = true := by
      simp only [SessionRecord.isRestartableCandidate, Bool.and_eq_true] at h
      exact h.1.1.1.2
    simp [h, hid]
  · simp [h]

theorem matches_stableId (session : SessionRecord) :
    SessionTargetKind.stableId.matchesSession session = session.stableId.isSome := by
  unfold SessionTargetKind.matchesSession SessionTargetKind.candidate SessionTargetKind.value
    SessionRecord.hasStableId
  by_cases h : session.stableId.isSome = true
  · simp [h]
  · simp [h]

/-! ### The records of a discovery -/

variable {probe : GitRootProbe} {session : SessionRecord}

theorem mem_foldl_collect : ∀ {records : List SessionRecord} {c : SessionCollector},
    session ∈ (records.foldl SessionCollector.collect c).sessions →
      session ∈ c.sessions ∨ session ∈ records
  | [], _, h => .inl h
  | r :: records, c, h => by
    have hstep : session ∈ (c.collect r).sessions → session ∈ c.sessions ∨ session = r := by
      intro hmem
      unfold SessionCollector.collect at hmem
      split at hmem
      · rwa [List.mem_append, List.mem_singleton] at hmem
      · next scope hscope =>
        split at hmem
        · next record hmatched =>
          have hr : record = r := by
            unfold GitRootDiscoveryScope.classifySession at hmatched
            split_ifs at hmatched
            · exact (ScopedSessionCandidate.matched.inj hmatched).symm
            · split at hmatched
              · cases hmatched
              · exact (ScopedSessionCandidate.matched.inj hmatched).symm
          rwa [List.mem_append, List.mem_singleton, hr] at hmem
        · exact .inl hmem
        · exact .inl hmem
    rw [List.foldl_cons] at h
    obtain h | h := mem_foldl_collect h
    · refine (hstep h).imp_right ?_
      rintro rfl
      exact List.mem_cons_self
    · exact .inr (List.mem_cons_of_mem _ h)

/-- A session that is collected is one of the records, or one of them marked as a duplicate. -/
theorem mem_collected {scope : SessionDiscoveryScope} {records sessions : List SessionRecord}
    (h : collected scope records = .ok sessions) (hmem : session ∈ sessions) :
    ∃ r ∈ records, session = r ∨ session = r.markDuplicate := by
  have hsessions : sessions = markDuplicateSessions
      (records.foldl SessionCollector.collect { scope }).sessions := by
    unfold collected SessionCollector.finish at h
    split at h
    · exact (Except.ok.inj h).symm
    · simp only at h
      split_ifs at h
      exact (Except.ok.inj h).symm
  rw [hsessions, markDuplicateSessions_eq] at hmem
  obtain ⟨r, hr, heq⟩ := List.mem_map.1 hmem
  refine ⟨r, (mem_foldl_collect hr).resolve_left List.not_mem_nil, ?_⟩
  split_ifs at heq
  · exact .inr heq.symm
  · exact .inl heq.symm

/-- A running session of a discovery is the fresh record of a container. -/
theorem fresh_of_running {containers : List PodmanPsContainer} {scope : SessionDiscoveryScope}
    {containerScope : ContainerDiscoveryScope} {inspect : InspectFn} {sessions : List SessionRecord}
    (h : discovered containers scope containerScope inspect probe = .ok sessions)
    (hmem : session ∈ sessions) (hrunning : session.isRunning = true) :
    ∃ container i kind, session = buildSessionRecord container i kind probe ∧
      session.status = .running := by
  have hstatus : session.status = .running := by
    unfold SessionRecord.isRunning SessionStatus.isRunning at hrunning
    split at hrunning
    · assumption
    · cases hrunning
  rw [discovered_eq] at h
  obtain ⟨records, hrecords, hcollected⟩ := bind_eq_ok.1 h
  obtain ⟨r, hr, rfl | rfl⟩ := mem_collected hcollected hmem
  · obtain ⟨candidate, -, i, -, rfl⟩ := (mem_recordsOf hrecords).1 hr
    exact ⟨_, _, _, rfl, hstatus⟩
  · cases hstatus

/-! ### The labels that a restart reads -/

/-- The arguments and the limits of a session are well formed where there are any. -/
structure WellFormed (m : SessionMetadata) : Prop where
  serverArgs : ∀ value, m.label LABEL_SERVER_ARGS = some value →
    (decodeStrings value).isSome = true
  cpus : ∀ value, m.label LABEL_RESOURCE_LIMIT_CPUS = some value → isCpuLimit value = true
  memory : ∀ value, m.label LABEL_RESOURCE_LIMIT_MEMORY = some value → isMemoryLimit value = true

theorem isOk_serverArgs (m : SessionMetadata) :
    (∃ args, m.serverArgs = .ok args) ↔
      ∀ value, m.label LABEL_SERVER_ARGS = some value → (decodeStrings value).isSome = true := by
  unfold SessionMetadata.serverArgs
  rcases m.label LABEL_SERVER_ARGS with _ | value
  · simp
  · rcases hargs : decodeStrings value with _ | args <;> simp [hargs]

theorem isOk_parseOptional {α : Type} {label : Option String} {parse : String → Except String α}
    {valid : String → Bool} (hparse : ∀ value, (∃ a, parse value = .ok a) ↔ valid value = true) :
    (∃ a, SessionMetadata.parseOptional label parse = .ok a) ↔
      ∀ value, label = some value → valid value = true := by
  unfold SessionMetadata.parseOptional
  rcases label with _ | value
  · simp
  · rcases hvalue : parse value with text | a
    · have hno : ¬ valid value = true := by
        rw [← hparse, hvalue]
        simp
      simp [hvalue, hno]
    · have hyes : valid value = true := (hparse value).1 ⟨a, hvalue⟩
      simp [hvalue, hyes]

theorem isOk_parse_cpus (value : String) :
    (∃ limit, CpuLimit.parse value = .ok limit) ↔ isCpuLimit value = true := by
  unfold CpuLimit.parse
  split_ifs with h <;> simp [h]

theorem isOk_parse_memory (value : String) :
    (∃ limit, MemoryLimit.parse value = .ok limit) ↔ isMemoryLimit value = true := by
  unfold MemoryLimit.parse
  split_ifs with h <;> simp [h]

theorem isOk_storedResourceLimits (m : SessionMetadata) :
    (∃ limits, m.storedResourceLimits = .ok limits) ↔
      (∀ value, m.label LABEL_RESOURCE_LIMIT_CPUS = some value → isCpuLimit value = true) ∧
      ∀ value, m.label LABEL_RESOURCE_LIMIT_MEMORY = some value → isMemoryLimit value = true := by
  rw [← isOk_parseOptional isOk_parse_cpus, ← isOk_parseOptional isOk_parse_memory]
  unfold SessionMetadata.storedResourceLimits
  constructor
  · rintro ⟨limits, h⟩
    obtain ⟨cpus, hcpus, h⟩ := bind_eq_ok.1 h
    obtain ⟨memory, hmemory, -⟩ := bind_eq_ok.1 h
    exact ⟨⟨cpus, hcpus⟩, memory, hmemory⟩
  · rintro ⟨⟨cpus, hcpus⟩, memory, hmemory⟩
    exact ⟨⟨cpus, memory⟩, by rw [hcpus, hmemory]; rfl⟩

/-- A session that is offered for a restart is accepted when its arguments can be read. -/
theorem isOk_prepareRestartSession {targetDisplay : String}
    (h : session.isRestartableCandidate = true) :
    (∃ restart, prepareRestartSession targetDisplay session = .ok restart) ↔
      ∃ args, session.metadata.serverArgs = .ok args := by
  simp only [SessionRecord.isRestartableCandidate, Bool.and_eq_true,
    Option.isSome_iff_exists] at h
  obtain ⟨⟨⟨⟨⟨hmanaged, hrunning⟩, -⟩, runtime, hruntime⟩, dir, hdir⟩, -⟩ := h
  have hvalid : validateRestartableStatus targetDisplay session = .ok () := by
    have hrun : session.isTransientRun = false := by
      rw [SessionRecord.isTransientRun, eq_of_beq hmanaged]
      rfl
    unfold SessionRecord.isRunning SessionStatus.isRunning at hrunning
    split at hrunning
    · next hstatus =>
      rw [validateRestartableStatus, hrun, hmanaged, hstatus]
      rfl
    · cases hrunning
  unfold prepareRestartSession sessionRuntime sessionLaunchDirectory sessionServerArgs
  rw [hvalid, hruntime, hdir]
  rcases hargs : session.metadata.serverArgs with e | args
  · exact iff_of_false (fun ⟨_, h⟩ => (nomatch h)) fun ⟨_, h⟩ => (nomatch h)
  · exact iff_of_true ⟨_, rfl⟩ ⟨args, rfl⟩

/-- `connect` accepts every running session of a discovery that has what it offers. -/
theorem isOk_prepareConnectSession {containers : List PodmanPsContainer}
    {scope : SessionDiscoveryScope} {containerScope : ContainerDiscoveryScope}
    {inspect : InspectFn} {sessions : List SessionRecord}
    (h : discovered containers scope containerScope inspect probe = .ok sessions)
    (hmem : session ∈ sessions) (hoffered : session.isConnectableCandidate = true)
    (workspace : WorkspaceIdentity) : ∃ accepted,
      prepareConnectSession workspace session = .ok accepted ∧ accepted.session = session ∧
        session.attachEndpoint = some accepted.endpoint ∧
        session.launchDirectory = some accepted.launchDirectory := by
  simp only [SessionRecord.isConnectableCandidate, Bool.and_eq_true] at hoffered
  obtain ⟨container, i, kind, rfl, hstatus⟩ := fresh_of_running h hmem hoffered.1.1.2
  exact prepareConnectSession_of_running hstatus

/-- A candidate is made of a session that matches. -/
theorem mem_candidates {kind : SessionTargetKind} {sessions : List SessionRecord}
    {candidate : SessionTargetCandidate} (h : candidate ∈ kind.candidates sessions) :
    ∃ session ∈ sessions, kind.value session = some candidate.value ∧
      kind.matchesSession session = true := by
  obtain ⟨session, hmem, hcandidate⟩ := List.mem_filterMap.1 h
  have hmatches : kind.matchesSession session = true := by
    rw [SessionTargetKind.matchesSession, hcandidate]
    rfl
  obtain ⟨value, hvalue, rfl⟩ := Option.map_eq_some_iff.1 hcandidate
  exact ⟨session, hmem, hvalue, hmatches⟩

/-- What the three prompts list comes from sessions of the discovery: the roots that `connect` lists
are accepted by it, the ids that `restart` lists are accepted by it when the arguments can be read,
and those that `stop` lists are ids of sessions. -/
theorem listed_accepted {containers : List PodmanPsContainer} {scope : SessionDiscoveryScope}
    {containerScope : ContainerDiscoveryScope} {inspect : InspectFn}
    {sessions : List SessionRecord}
    (h : discovered containers scope containerScope inspect probe = .ok sessions) :
    (∀ candidate ∈ SessionTargetKind.connectRoot.candidates sessions, ∃ session ∈ sessions,
      session.canonicalGitRoot.map Utf8Path.asStr = some candidate.value ∧
        ∀ workspace, ∃ accepted, prepareConnectSession workspace session = .ok accepted) ∧
    (∀ candidate ∈ SessionTargetKind.restartStableId.candidates sessions, ∃ session ∈ sessions,
      session.stableId = some candidate.value ∧ ∀ targetDisplay,
        ((∃ restart, prepareRestartSession targetDisplay session = .ok restart) ↔
          ∃ args, session.metadata.serverArgs = .ok args)) ∧
    ∀ candidate ∈ SessionTargetKind.stableId.candidates sessions, ∃ session ∈ sessions,
      session.stableId = some candidate.value := by
  refine ⟨fun candidate hc => ?_, fun candidate hc => ?_, fun candidate hc => ?_⟩
  · obtain ⟨session, hmem, hvalue, hmatches⟩ := mem_candidates hc
    rw [matches_connectRoot] at hmatches
    rw [SessionTargetKind.value, if_pos hmatches] at hvalue
    refine ⟨session, hmem, hvalue, fun workspace => ?_⟩
    obtain ⟨accepted, hok, -⟩ := isOk_prepareConnectSession h hmem hmatches workspace
    exact ⟨accepted, hok⟩
  · obtain ⟨session, hmem, hvalue, hmatches⟩ := mem_candidates hc
    rw [matches_restartStableId] at hmatches
    rw [SessionTargetKind.value, if_pos hmatches] at hvalue
    exact ⟨session, hmem, hvalue, fun _ => isOk_prepareRestartSession hmatches⟩
  · obtain ⟨session, hmem, hvalue, hmatches⟩ := mem_candidates hc
    rw [matches_stableId] at hmatches
    rw [SessionTargetKind.value, SessionRecord.hasStableId, if_pos hmatches] at hvalue
    exact ⟨session, hmem, hvalue⟩

/-- **What is offered is accepted.** Of the sessions of any discovery, `connect` accepts each that it
offers, and `restart` accepts one that it offers exactly when its labels are well formed. -/
theorem offered_accepted (containers : List PodmanPsContainer) (scope : SessionDiscoveryScope)
    (containerScope : ContainerDiscoveryScope) (inspect : InspectFn) (probe : GitRootProbe)
    (sessions : List SessionRecord)
    (h : discovered containers scope containerScope inspect probe = .ok sessions) :
    ∀ session ∈ sessions,
      (session.isConnectableCandidate = true → ∀ workspace, ∃ accepted,
        prepareConnectSession workspace session = .ok accepted ∧ accepted.session = session ∧
          session.attachEndpoint = some accepted.endpoint ∧
          session.launchDirectory = some accepted.launchDirectory) ∧
      (session.isRestartableCandidate = true → ∀ targetDisplay,
        ((∃ restart, prepareRestartSession targetDisplay session = .ok restart) ∧
            ∃ limits, session.metadata.storedResourceLimits = .ok limits) ↔
          WellFormed session.metadata) := by
  intro session hmem
  constructor
  · exact fun hoffered workspace => isOk_prepareConnectSession h hmem hoffered workspace
  · intro hoffered targetDisplay
    rw [isOk_prepareRestartSession hoffered, isOk_serverArgs, isOk_storedResourceLimits]
    exact ⟨fun ⟨hargs, hcpus, hmemory⟩ => ⟨hargs, hcpus, hmemory⟩,
      fun hlabels => ⟨hlabels.serverArgs, hlabels.cpus, hlabels.memory⟩⟩

theorem discovered_demo {c : PodmanContainer} (h : c.kind = some .managed) :
    discovered [c.listed] .all .managedSessions (fun _ => .ok c.inspected) demoProbe =
      .ok [record demoProbe c .managed] := by
  have hcandidates : candidates [c.listed] .all .managedSessions = [(c.listed, .managed)] := by
    have hps : psCandidate .managedSessions c.listed = some (c.listed, .managed) := by
      rw [psCandidate_listed, h]
      rfl
    rw [candidates, List.filterMap_cons_some hps]
    rfl
  rw [discovered_eq, hcandidates]
  change collected .all [record demoProbe c .managed] = _
  rw [collected_all, markDuplicateSessions_singleton]

/-- The session of a container that agentbox made is offered and accepted by both commands. -/
theorem offered_accepted_demo :
    (∀ workspace, ∃ accepted, prepareConnectSession workspace (record demoProbe
      (demoContainer "managed" (managedSessionLabels demoLabelInput)) .managed) = .ok accepted) ∧
    ∀ targetDisplay, ∃ restart, prepareRestartSession targetDisplay (record demoProbe
      (demoContainer "managed" (managedSessionLabels demoLabelInput)) .managed) = .ok restart := by
  have h := offered_accepted
    [(demoContainer "managed" (managedSessionLabels demoLabelInput)).listed] .all .managedSessions
    (fun _ => .ok (demoContainer "managed" (managedSessionLabels demoLabelInput)).inspected)
    demoProbe _ (discovered_demo (by decide +kernel)) _ (List.mem_singleton_self _)
  have hnone : ∀ name ∈ [LABEL_SERVER_ARGS, LABEL_RESOURCE_LIMIT_CPUS,
      LABEL_RESOURCE_LIMIT_MEMORY], (SessionMetadata.mk
        (managedSessionLabels demoLabelInput)).label name = none := by decide +kernel
  constructor
  · intro workspace
    obtain ⟨accepted, hok, -⟩ := h.1 (by decide +kernel) workspace
    exact ⟨accepted, hok⟩
  · intro targetDisplay
    refine ((h.2 (by decide +kernel) targetDisplay).2 ⟨?_, ?_, ?_⟩).1
    · exact fun value hvalue => absurd (hvalue.symm.trans (hnone _ (by decide))) nofun
    · exact fun value hvalue => absurd (hvalue.symm.trans (hnone _ (by decide))) nofun
    · exact fun value hvalue => absurd (hvalue.symm.trans (hnone _ (by decide))) nofun

/-- A session that passes every check of its status, with one more label. -/
def oddContainer (label value : String) : PodmanContainer :=
  demoContainer "managed" ((managedSessionLabels demoLabelInput).insert label value)

/-- A session whose label for the arguments is no list of strings, and one with a malformed limit:
both are offered for a restart, and a restart accepts neither. -/
theorem not_offered_accepted :
    (∃ sessions, ∃ session ∈ sessions, discovered
        [(oddContainer LABEL_SERVER_ARGS "not-json").listed] .all .managedSessions
        (fun _ => .ok (oddContainer LABEL_SERVER_ARGS "not-json").inspected) demoProbe =
          .ok sessions ∧ session.isRestartableCandidate = true ∧
      ∀ targetDisplay restart, prepareRestartSession targetDisplay session ≠ .ok restart) ∧
    ∃ sessions, ∃ session ∈ sessions, discovered
        [(oddContainer LABEL_RESOURCE_LIMIT_CPUS "two").listed] .all .managedSessions
        (fun _ => .ok (oddContainer LABEL_RESOURCE_LIMIT_CPUS "two").inspected) demoProbe =
          .ok sessions ∧ session.isRestartableCandidate = true ∧
      ∀ limits, session.metadata.storedResourceLimits ≠ .ok limits := by
  constructor
  · have hoffered : (record demoProbe (oddContainer LABEL_SERVER_ARGS "not-json")
      .managed).isRestartableCandidate = true := by decide +kernel
    refine ⟨_, _, List.mem_singleton_self _, discovered_demo (by decide +kernel), hoffered,
      fun targetDisplay restart hok => ?_⟩
    have hargs := (isOk_serverArgs _).1 ((isOk_prepareRestartSession hoffered).1 ⟨restart, hok⟩)
      "not-json" (by decide +kernel)
    exact absurd hargs (by decide +kernel)
  · refine ⟨_, _, List.mem_singleton_self _, discovered_demo (by decide +kernel),
      by decide +kernel, fun limits hok => ?_⟩
    have hcpus := ((isOk_storedResourceLimits _).1 ⟨limits, hok⟩).1 "two" (by decide +kernel)
    exact absurd hcpus (by decide +kernel)

end Agentbox.Session.Candidate
