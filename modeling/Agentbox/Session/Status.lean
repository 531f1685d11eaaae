import Agentbox.Session.Inspected

/-! # What a status says

A record that is not failed has passed every check of its labels. -/

namespace Agentbox.Session.Status

open Agentbox.Base.Path Agentbox.Base.Errors Agentbox.Files.Snapshot Agentbox.Metadata.Labels Agentbox.Podman.Model
  Agentbox.Runtime.Kind Agentbox.Runtime.Spec Agentbox.Workspace.Identity Agentbox.Session.Record
  Agentbox.Session.Inspected

variable {m : SessionMetadata}

theorem requireSessionLabel_eq_ok {name value : String} :
    requireSessionLabel m name = .ok value ↔ m.label name = some value := by
  unfold requireSessionLabel
  cases m.label name with
  | none => exact ⟨fun h => (nomatch h), fun h => (nomatch h)⟩
  | some v => rw [Except.ok.injEq, Option.some.injEq]

theorem requireSessionLabelValue_eq_ok {name value : String} :
    requireSessionLabelValue m name value = .ok () ↔ m.label name = some value := by
  unfold requireSessionLabelValue
  split_ifs with h
  · exact iff_of_true rfl h
  · exact iff_of_false nofun h

theorem requireSessionLabels_eq_ok : ∀ {names : List String} {u : Unit},
    requireSessionLabels m names = .ok u ↔ ∀ name ∈ names, ∃ value, m.label name = some value
  | [], _ => iff_of_true rfl fun _ h => absurd h List.not_mem_nil
  | name :: names, _ => by
    simp only [requireSessionLabels, bind_eq_ok, requireSessionLabel_eq_ok,
      @requireSessionLabels_eq_ok names, List.forall_mem_cons, exists_and_right]

/-- The labels of a container that agentbox can identify. -/
structure Identified (m : SessionMetadata) (root : Utf8Path) : Prop where
  marker : requireAgentboxContainerMarker m = .ok ()
  gitRoot : m.canonicalGitRoot = some root
  gitRootHash : m.gitRootHash = some (gitRootHash12 root)

theorem identity_eq_ok {identity : SessionIdentityLabels} :
    SessionIdentityLabels.validated m = .ok identity ↔
      Identified m identity.canonicalGitRoot ∧
        identity.gitRootHash = gitRootHash12 identity.canonicalGitRoot := by
  unfold SessionIdentityLabels.validated SessionIdentityLabels.fromSessionLabels
  simp only [bind_eq_ok, requireSessionLabels_eq_ok, requireSessionLabel_eq_ok]
  constructor
  · rintro ⟨_, ⟨⟨⟩, hmarker, _, -, root, hroot, hash, hhash, hpure⟩, hif⟩
    cases hpure
    split_ifs at hif with heq
    cases hif
    refine ⟨⟨hmarker, ?_, ?_⟩, heq⟩
    · rw [SessionMetadata.canonicalGitRoot, hroot]
      rfl
    · rw [SessionMetadata.gitRootHash, hhash]
      exact congrArg some heq
  · rintro ⟨⟨hmarker, hroot, hhash⟩, heq⟩
    obtain ⟨⟨root⟩, hash⟩ := identity
    rw [SessionMetadata.canonicalGitRoot, Option.map_eq_some_iff] at hroot
    obtain ⟨value, hvalue, hval⟩ := hroot
    cases hval
    refine ⟨_, ⟨(), hmarker, (), ?_, _, hvalue, _, hhash, rfl⟩, ?_⟩
    · simp only [REQUIRED_SESSION_WORKSPACE_IDENTITY_LABELS, List.forall_mem_cons]
      exact ⟨⟨_, hvalue⟩, ⟨_, hhash⟩, fun _ h => absurd h List.not_mem_nil⟩
    · simp only [↓reduceIte]
      exact congrArg (fun h => Except.ok (SessionIdentityLabels.mk _ h)) heq.symm

/-- The labels of a container that agentbox can use. -/
structure Complete (m : SessionMetadata) (root launchDirectory : Utf8Path) : Prop
    extends Identified m root where
  image : ∃ value, m.label LABEL_IMAGE = some value
  logicalName : ∃ value, m.label LABEL_LOGICAL_NAME = some value
  launchDirectory_eq : m.launchDirectory = some launchDirectory
  isAbsolute : launchDirectory.isAbsolute = true
  isDescendant : pathIsOrDescendant launchDirectory root = true

theorem required_eq_ok {required : RequiredSessionLabels} :
    (SessionLabelReport.fromMetadata m).required = .ok required ↔
      Complete m required.identity.canonicalGitRoot required.launchDirectory ∧
        required.identity.gitRootHash = gitRootHash12 required.identity.canonicalGitRoot := by
  unfold SessionLabelReport.fromMetadata RequiredSessionLabels.fromValidatedIdentity
  simp only [bind_eq_ok, requireSessionLabels_eq_ok, requireSessionLabel_eq_ok, identity_eq_ok,
    REQUIRED_SESSION_METADATA_LABELS, List.forall_mem_cons]
  constructor
  · rintro ⟨identity, ⟨hid, hhash⟩, _, ⟨himage, -, hname, -⟩, dir, hdir, hif⟩
    split_ifs at hif with hvalid
    cases hif
    rw [Bool.and_eq_true] at hvalid
    refine ⟨⟨hid, himage, hname, ?_, hvalid.1, hvalid.2⟩, hhash⟩
    rw [SessionMetadata.launchDirectory, hdir]
    rfl
  · rintro ⟨⟨hid, himage, hname, hdir, habs, hdesc⟩, hhash⟩
    obtain ⟨identity, ⟨dir⟩⟩ := required
    rw [SessionMetadata.launchDirectory, Option.map_eq_some_iff] at hdir
    obtain ⟨value, hvalue, hval⟩ := hdir
    cases hval
    refine ⟨identity, ⟨hid, hhash⟩, (), ⟨himage, ⟨_, hvalue⟩, hname, ?_⟩, _, hvalue, ?_⟩
    · exact fun _ h => absurd h List.not_mem_nil
    · rw [if_pos (by rw [habs, hdesc]; rfl)]
      rfl

variable {container : PodmanPsContainer} {inspect : PodmanContainerInspect}
  {kind : AgentboxContainerKind} {probe : GitRootProbe}

/-- Every check that `derive_status` makes but the one of the git root. -/
structure Healthy (inspect : PodmanContainerInspect) (root : Utf8Path) : Prop where
  complete : ∃ launchDirectory, Complete ⟨inspect.labels⟩ root launchDirectory
  endpoint : ∃ endpoint, attachEndpointReport
    (SessionLabelReport.fromMetadata ⟨inspect.labels⟩) inspect = .ok endpoint
  cacheMount : hasVolumeMountDestination inspect.mounts NIX_CACHE_DESTINATION = true
  running : inspect.running = true

/-- A fresh record has one of three statuses. -/
theorem status_cases (container : PodmanPsContainer) (inspect : PodmanContainerInspect)
    (kind : AgentboxContainerKind) (probe : GitRootProbe) :
    (∃ failure, (buildSessionRecord container inspect kind probe).status = .failed (some failure) ∧
      ∀ root, ¬ Healthy inspect root) ∨
    ∃ root, Healthy inspect root ∧ (buildSessionRecord container inspect kind probe).status =
      if gitRootIsOrphaned root probe then .orphaned else .running := by
  unfold buildSessionRecord deriveStatus
  simp only
  rcases hreq : (SessionLabelReport.fromMetadata ⟨inspect.labels⟩).required with e | required
  · refine .inl ⟨e, rfl, fun root h => ?_⟩
    obtain ⟨dir, hc⟩ := h.complete
    have hok := (@required_eq_ok _ ⟨⟨root, gitRootHash12 root⟩, dir⟩).2 ⟨hc, rfl⟩
    rw [hreq] at hok
    cases hok
  rcases hend : attachEndpointReport (SessionLabelReport.fromMetadata ⟨inspect.labels⟩) inspect with
    e | endpoint
  · refine .inl ⟨e, rfl, fun root h => ?_⟩
    obtain ⟨endpoint, hok⟩ := h.endpoint
    rw [hend] at hok
    cases hok
  by_cases hmount : hasVolumeMountDestination inspect.mounts NIX_CACHE_DESTINATION = true
  · by_cases hrun : inspect.running = true
    · refine .inr ⟨required.identity.canonicalGitRoot,
        ⟨⟨_, (required_eq_ok.1 hreq).1⟩, ⟨endpoint, hend⟩, hmount, hrun⟩, ?_⟩
      simp [hmount, hrun]
    · exact .inl ⟨.notRunning, by simp [hmount, hrun], fun _ h => hrun h.running⟩
  · exact .inl ⟨.missingCacheMount, by simp [hmount], fun _ h => hmount h.cacheMount⟩

theorem healthy_of_not_isFailed
    (h : (buildSessionRecord container inspect kind probe).status.isFailed = false) :
    ∃ root, Healthy inspect root ∧ (buildSessionRecord container inspect kind probe).status =
      if gitRootIsOrphaned root probe then .orphaned else .running := by
  obtain ⟨failure, hstatus, -⟩ | hroot := status_cases container inspect kind probe
  · rw [hstatus] at h
    cases h
  · exact hroot

end Agentbox.Session.Status
