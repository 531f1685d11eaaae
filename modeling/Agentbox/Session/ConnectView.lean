import Agentbox.Session.Claimants
import Agentbox.Session.Connectable

/-! # Duplicates for connect and for ps

`connect` looks at the managed sessions of one root, `ps` at all containers that agentbox owns. Both
mark duplicates in what they look at, so they agree as long as `connect` sees every container that
counts for the root. -/

namespace Agentbox.Session.ConnectView

open Agentbox.Base.Path Agentbox.Base.Errors Agentbox.Files.Snapshot Agentbox.Metadata.Labels
  Agentbox.Metadata.Session Agentbox.Podman.Model Agentbox.Podman.State Agentbox.Runtime.Kind
  Agentbox.Runtime.Spec Agentbox.Workspace.Identity Agentbox.Session.Record Agentbox.Session.Inspected
  Agentbox.Session.Discovery Agentbox.Session.Status Agentbox.Session.Collected
  Agentbox.Session.ScopedDiscovery Agentbox.Session.Views Agentbox.Session.Claimants
  Agentbox.Session.Selection Agentbox.Session.Connectable

/-- The session that `connect_directory` accepts. -/
def connectSession (s : PodmanState) (probe : GitRootProbe) (workspace : WorkspaceIdentity) :
    Except Error ConnectableSession :=
  (discovered (s.listing true) (.forGitRoot workspace.canonicalGitRoot) .managedSessions
    s.inspectOne probe).bind (selectConnectSession workspace)

/-- The sessions that `ps` shows. -/
def psSessions (s : PodmanState) (probe : GitRootProbe) : Except Error (List SessionRecord) :=
  discovered (s.listing false) .all .agentboxOwned s.inspectOne probe

/-- An accepted session is shown as running by `ps`, and two containers that count for the root make
`connect` fail for duplicates. -/
def ConnectAgrees (s : PodmanState) (probe : GitRootProbe) (workspace : WorkspaceIdentity) :
    Prop :=
  (∀ accepted, connectSession s probe workspace = .ok accepted →
    ∃ sessions, psSessions s probe = .ok sessions ∧ ∃ session ∈ sessions,
      session.containerId = accepted.session.containerId ∧ session.status = .running) ∧
  (2 ≤ (claimantsOf s probe workspace.canonicalGitRoot).length →
    connectSession s probe workspace = .error (duplicateSessionsError workspace))

/-- The managed session is one that `connect` looks at for the root. -/
def isConnectCandidate (gitRoot : Utf8Path) (c : PodmanContainer) : Bool :=
  isCandidate (.forGitRoot gitRoot) .managedSessions c

def connectView (s : PodmanState) (probe : GitRootProbe) (gitRoot : Utf8Path) :
    List PodmanContainer :=
  (s.containers.filter (isConnectCandidate gitRoot)).filter fun c =>
    belongs gitRoot (record probe c .managed)

/-- Among these sessions is one with the hash of the root and another root. -/
def connectCollides (s : PodmanState) (probe : GitRootProbe) (gitRoot : Utf8Path) : Bool :=
  (s.containers.filter (isConnectCandidate gitRoot)).any fun c =>
    collides gitRoot (record probe c .managed)

variable {s : PodmanState} {probe : GitRootProbe} {gitRoot : Utf8Path} {c : PodmanContainer}
  {kind : AgentboxContainerKind} {workspace : WorkspaceIdentity}

theorem kind_of_isConnectCandidate (h : isConnectCandidate gitRoot c = true) :
    c.kind = some .managed := by
  rw [isConnectCandidate, isCandidate, Bool.and_eq_true, Option.any_eq_true] at h
  obtain ⟨⟨kind, hkind, hmanaged⟩, -⟩ := h
  rw [hkind, eq_of_beq hmanaged]

theorem records_managed (s : PodmanState) (probe : GitRootProbe) (gitRoot : Utf8Path) :
    records probe s (.forGitRoot gitRoot) .managedSessions =
      (s.containers.filter (isConnectCandidate gitRoot)).map fun c => record probe c .managed := by
  rw [records, inspectedContainers, List.map_filterMap, ← List.filterMap_eq_map]
  refine List.filterMap_congr fun c hc => ?_
  have hkind := kind_of_isConnectCandidate (List.mem_filter.1 hc).2
  rw [owned, hkind]
  rfl

/-! ### The error for duplicates -/

theorem msg_ne_duplicateSessionsError {text : String} (h : text.toList.head? ≠ some 'd') :
    Error.msg text ≠ duplicateSessionsError workspace := by
  intro heq
  have htext : text = _ := Error.message.inj heq
  rw [htext] at h
  simp [String.toList_append] at h

theorem sessionFailureError_ne (session : SessionRecord) (failure : SessionFailure) :
    sessionFailureError workspace session failure ≠ duplicateSessionsError workspace :=
  msg_ne_duplicateSessionsError (by simp [String.toList_append])

/-- Only the status makes a single session a duplicate. -/
theorem prepareConnectSession_ne_duplicate {session : SessionRecord}
    (h : session.status ≠ .duplicate) :
    prepareConnectSession workspace session ≠ .error (duplicateSessionsError workspace) := by
  have hvalid : ∀ e, validateConnectableStatus workspace session = .error e →
      e ≠ duplicateSessionsError workspace := by
    intro e he
    unfold validateConnectableStatus at he
    split at he
    · cases he
    · cases he
      exact msg_ne_duplicateSessionsError (by simp [String.toList_append])
    · cases he
      exact msg_ne_duplicateSessionsError (by simp [String.toList_append])
    · cases he
      exact sessionFailureError_ne _ _
    · cases he
      exact msg_ne_duplicateSessionsError (by simp [String.toList_append])
    · next hstatus => exact absurd hstatus h
  have hfail : ∀ {α : Type} (value : Option α) (failure : SessionFailure) (e : Error),
      orFailure value workspace session failure = .error e →
        e ≠ duplicateSessionsError workspace := by
    intro α value failure e he
    rcases value with _ | a
    · cases he
      exact sessionFailureError_ne _ _
    · cases he
  unfold prepareConnectSession
  intro herr
  rcases hv : validateConnectableStatus workspace session with e | _
  · rw [hv] at herr
    exact hvalid e hv (Except.error.inj herr)
  rcases hr : orFailure session.runtimeKind workspace session .unsupportedRuntimeLabel with e | _
  · rw [hv, hr] at herr
    exact hfail _ _ e hr (Except.error.inj herr)
  rcases he : orFailure session.attachEndpoint workspace session .malformedEndpointLabels with e | _
  · rw [hv, hr, he] at herr
    exact hfail _ _ e he (Except.error.inj herr)
  rcases hd : orFailure session.launchDirectory workspace session .malformedLaunchDirectory with
    e | _
  · rw [hv, hr, he, hd] at herr
    exact hfail _ _ e hd (Except.error.inj herr)
  · rw [hv, hr, he, hd] at herr
    cases herr

/-! ### The two views -/

/-- What `connect` makes of its view. -/
theorem connectSession_eq (s : PodmanState) (probe : GitRootProbe) (workspace : WorkspaceIdentity) :
    (connectCollides s probe workspace.canonicalGitRoot = true →
      connectSession s probe workspace ≠ .error (duplicateSessionsError workspace) ∧
        ∀ accepted, connectSession s probe workspace ≠ .ok accepted) ∧
    (connectCollides s probe workspace.canonicalGitRoot = false →
      connectSession s probe workspace = selectConnectSession workspace (markDuplicateSessions
        ((connectView s probe workspace.canonicalGitRoot).map fun c => record probe c .managed))) := by
  have hview : connectSession s probe workspace =
      (view probe s (.forGitRoot workspace.canonicalGitRoot) .managedSessions).bind
        (selectConnectSession workspace) := by
    rw [← discovered_listing]
    rfl
  obtain ⟨hcol, hok⟩ := collected_gitRoot workspace.canonicalGitRoot
    (records probe s (.forGitRoot workspace.canonicalGitRoot) .managedSessions)
  rw [records_managed, List.any_map] at hcol hok
  rw [hview, view, records_managed]
  constructor
  · intro h
    obtain ⟨roots, he⟩ := hcol h
    rw [he]
    refine ⟨fun heq => ?_, fun accepted heq => by cases heq⟩
    exact msg_ne_duplicateSessionsError (by simp [String.toList_append]) (Except.error.inj heq)
  · intro h
    rw [hok h, List.filter_map]
    rfl

theorem markDuplicateSessions_singleton (r : SessionRecord) : markDuplicateSessions [r] = [r] := by
  have hone : isDuplicate [r] r = false := by
    unfold isDuplicate
    rw [Option.any_eq_false]
    intro root _
    have hlen := List.length_filter_le (fun session => countedRoot session = some root) [r]
    rw [decide_eq_false_iff_not, claimants]
    rw [List.length_singleton] at hlen
    omega
  rw [markDuplicateSessions_eq, List.map_singleton, hone]
  rfl

/-- `connect` fails for duplicates exactly when it sees two sessions. -/
theorem connectSession_duplicate (hcol : connectCollides s probe workspace.canonicalGitRoot = false) :
    connectSession s probe workspace = .error (duplicateSessionsError workspace) ↔
      2 ≤ (connectView s probe workspace.canonicalGitRoot).length := by
  rw [(connectSession_eq s probe workspace).2 hcol]
  rcases hv : connectView s probe workspace.canonicalGitRoot with _ | ⟨c, _ | ⟨c', l⟩⟩
  · refine iff_of_false (fun h => ?_) (by simp)
    exact msg_ne_duplicateSessionsError (by simp [String.toList_append]) (Except.error.inj h)
  · refine iff_of_false (fun h => ?_) (by simp)
    rw [List.map_singleton, markDuplicateSessions_singleton] at h
    refine prepareConnectSession_ne_duplicate (fun hstatus => ?_) h
    obtain ⟨failure, hf, -⟩ | ⟨root, -, hf⟩ := status_cases c.listed c.inspected .managed probe
    · rw [record, hf] at hstatus
      cases hstatus
    · rw [record, hf] at hstatus
      split_ifs at hstatus
  · refine iff_of_true ?_ (by simp)
    rw [markDuplicateSessions_eq]
    rfl

/-- `connect` accepts exactly the single session that it sees, when that is running. -/
theorem connectSession_ok {accepted : ConnectableSession}
    (h : connectSession s probe workspace = .ok accepted) :
    connectCollides s probe workspace.canonicalGitRoot = false ∧
      ∃ c, connectView s probe workspace.canonicalGitRoot = [c] ∧
        accepted.session = record probe c .managed ∧
        (record probe c .managed).status = .running := by
  have hcol : connectCollides s probe workspace.canonicalGitRoot = false := by
    by_contra hcol
    exact ((connectSession_eq s probe workspace).1 (Bool.not_eq_false _ ▸ hcol)).2 accepted h
  refine ⟨hcol, ?_⟩
  rw [(connectSession_eq s probe workspace).2 hcol] at h
  rcases hv : connectView s probe workspace.canonicalGitRoot with _ | ⟨c, _ | ⟨c', l⟩⟩
  · rw [hv] at h
    cases h
  · rw [hv, List.map_singleton, markDuplicateSessions_singleton] at h
    have hprep : prepareConnectSession workspace (record probe c .managed) = .ok accepted := h
    refine ⟨c, rfl, ?_⟩
    unfold prepareConnectSession at hprep
    obtain ⟨_, hvalid, hprep⟩ := bind_eq_ok.1 hprep
    obtain ⟨_, -, hprep⟩ := bind_eq_ok.1 hprep
    obtain ⟨_, -, hprep⟩ := bind_eq_ok.1 hprep
    obtain ⟨_, -, hprep⟩ := bind_eq_ok.1 hprep
    cases hprep
    refine ⟨rfl, ?_⟩
    unfold validateConnectableStatus at hvalid
    split at hvalid
    · assumption
    all_goals cases hvalid
  · rw [hv, markDuplicateSessions_eq] at h
    cases h

theorem connectSession_of_single (hcol : connectCollides s probe workspace.canonicalGitRoot = false)
    (hv : connectView s probe workspace.canonicalGitRoot = [c])
    (hstatus : (record probe c .managed).status = .running) :
    ∃ accepted, connectSession s probe workspace = .ok accepted ∧
      accepted.session = record probe c .managed := by
  obtain ⟨accepted, hok, hsession, -⟩ : ∃ accepted,
      prepareConnectSession workspace (record probe c .managed) = .ok accepted ∧
        accepted.session = record probe c .managed ∧ _ :=
    prepareConnectSession_of_running hstatus
  refine ⟨accepted, ?_, hsession⟩
  rw [(connectSession_eq s probe workspace).2 hcol, hv, List.map_singleton,
    markDuplicateSessions_singleton]
  exact hok

theorem psSessions_eq (s : PodmanState) (probe : GitRootProbe) :
    psSessions s probe = .ok (markDuplicateSessions (records probe s .all .agentboxOwned)) := by
  rw [← collected_all]
  exact discovered_listing s .all .agentboxOwned probe

/-- `ps` shows a running container of the root as running exactly when no other one counts. -/
theorem shown_running_iff (hc : c ∈ s.containers) (hkind : c.kind = some kind)
    (hstatus : (record probe c kind).status = .running)
    (hroot : ((record probe c kind).canonicalGitRoot == some gitRoot) = true) :
    (∃ sessions, psSessions s probe = .ok sessions ∧ ∃ session ∈ sessions,
      session.containerId = c.id ∧ session.status = .running) ↔
        (claimantsOf s probe gitRoot).length < 2 := by
  have hcount : countedRoot (record probe c kind) = some gitRoot.components :=
    countedRoot_record.2 (by rw [hstatus, hroot]; rfl)
  have hdup : isDuplicate (records probe s .all .agentboxOwned) (record probe c kind) =
      decide (1 < (claimantsOf s probe gitRoot).length) := by
    rw [isDuplicate, hcount, Option.any_some, claimants_records]
  rw [psSessions_eq, markDuplicateSessions_eq]
  constructor
  · rintro ⟨_, ⟨⟩, session, hsession, hid, hrunning⟩
    obtain ⟨r, hr, rfl⟩ := List.mem_map.1 hsession
    obtain ⟨c', kind', hc', -, hkind', rfl⟩ := mem_records.1 hr
    have hsame : c' = c := by
      refine PodmanState.eq_of_mem_refs hc' hc c'.id_mem_refs ?_
      have hid' : c'.id = c.id := by
        split_ifs at hid
        · exact hid
        · exact hid
      rw [hid']
      exact c.id_mem_refs
    subst hsame
    rw [hkind] at hkind'
    cases hkind'
    by_contra hlen
    rw [hdup, if_pos (decide_eq_true (by omega))] at hrunning
    cases hrunning
  · intro hlen
    refine ⟨_, rfl, record probe c kind, List.mem_map.2 ⟨record probe c kind, ?_, ?_⟩, rfl, hstatus⟩
    · refine mem_records.2 ⟨c, kind, hc, ?_, hkind, rfl⟩
      rw [isCandidate, hkind]
      rfl
    · rw [hdup, if_neg (by rw [decide_eq_true_eq]; omega)]

theorem mem_connectView (h : c ∈ connectView s probe gitRoot) :
    c ∈ s.containers ∧ c.kind = some .managed ∧
      belongs gitRoot (record probe c .managed) = true := by
  obtain ⟨hc, hbelongs⟩ := List.mem_filter.1 h
  obtain ⟨hc, hcand⟩ := List.mem_filter.1 hc
  exact ⟨hc, kind_of_isConnectCandidate hcand, hbelongs⟩

theorem root_of_belongs (hstatus : (record probe c kind).status = .running)
    (h : belongs gitRoot (record probe c kind) = true) :
    ((record probe c kind).canonicalGitRoot == some gitRoot) = true := by
  obtain ⟨root, hhealthy, -⟩ := @healthy_of_not_isFailed c.listed c.inspected kind probe
    (by rw [record] at hstatus; rw [hstatus]; rfl)
  obtain ⟨dir, hdir⟩ := hhealthy.complete
  have hroot : (record probe c kind).canonicalGitRoot = some root := hdir.gitRoot
  rw [belongs, hroot] at h
  rw [hroot]
  simpa using h

/-- The only session that `connect` sees is a running one. -/
def SeesOneRunning (s : PodmanState) (probe : GitRootProbe) (gitRoot : Utf8Path) : Prop :=
  connectCollides s probe gitRoot = false ∧ ∃ c, connectView s probe gitRoot = [c] ∧
    (record probe c .managed).status = .running

/-- **`connect` agrees with `ps` exactly when it sees the duplicates.** The first part alone needs
less: no second container counts for the root of an accepted session. -/
theorem connectAgrees_iff (s : PodmanState) (probe : GitRootProbe) (workspace : WorkspaceIdentity) :
    (ConnectAgrees s probe workspace ↔
      (claimantsOf s probe workspace.canonicalGitRoot).length < 2 ∨
        connectCollides s probe workspace.canonicalGitRoot = false ∧
          2 ≤ (connectView s probe workspace.canonicalGitRoot).length) ∧
    ((∀ accepted, connectSession s probe workspace = .ok accepted →
        ∃ sessions, psSessions s probe = .ok sessions ∧ ∃ session ∈ sessions,
          session.containerId = accepted.session.containerId ∧ session.status = .running) ↔
      (claimantsOf s probe workspace.canonicalGitRoot).length < 2 ∨
        ¬ SeesOneRunning s probe workspace.canonicalGitRoot) := by
  have hshown : (∀ accepted, connectSession s probe workspace = .ok accepted →
      ∃ sessions, psSessions s probe = .ok sessions ∧ ∃ session ∈ sessions,
        session.containerId = accepted.session.containerId ∧ session.status = .running) ↔
      (claimantsOf s probe workspace.canonicalGitRoot).length < 2 ∨
        ¬ SeesOneRunning s probe workspace.canonicalGitRoot := by
    constructor
    · intro h
      by_contra hno
      rw [not_or, not_not] at hno
      obtain ⟨hlen, hcol, c, hv, hstatus⟩ := hno
      obtain ⟨accepted, hok, hsession⟩ := connectSession_of_single hcol hv hstatus
      obtain ⟨hc, hkind, hbelongs⟩ := mem_connectView (hv ▸ List.mem_singleton_self c)
      have hps := h accepted hok
      rw [hsession] at hps
      exact hlen ((shown_running_iff hc hkind hstatus (root_of_belongs hstatus hbelongs)).1 hps)
    · intro h accepted hok
      obtain ⟨hcol, c, hv, hsession, hstatus⟩ := connectSession_ok hok
      obtain ⟨hc, hkind, hbelongs⟩ := mem_connectView (hv ▸ List.mem_singleton_self c)
      have hlen := h.resolve_right fun hno => hno ⟨hcol, c, hv, hstatus⟩
      rw [hsession]
      exact (shown_running_iff hc hkind hstatus (root_of_belongs hstatus hbelongs)).2 hlen
  refine ⟨?_, hshown⟩
  rw [ConnectAgrees, hshown]
  constructor
  · rintro ⟨-, hdup⟩
    by_contra hno
    rw [not_or] at hno
    have herr := hdup (by omega)
    by_cases hcol : connectCollides s probe workspace.canonicalGitRoot = true
    · exact ((connectSession_eq s probe workspace).1 hcol).1 herr
    · rw [Bool.not_eq_true] at hcol
      exact hno.2 ⟨hcol, (connectSession_duplicate hcol).1 herr⟩
  · rintro (hlen | ⟨hcol, hview⟩)
    · exact ⟨.inl hlen, fun h => absurd h (by omega)⟩
    · refine ⟨.inr fun ⟨_, c, hv, _⟩ => ?_, fun _ => (connectSession_duplicate hcol).2 hview⟩
      rw [hv, List.length_singleton] at hview
      omega

def demoWorkspace : WorkspaceIdentity where
  requestedTarget := demoRoot
  absoluteTarget := demoRoot
  canonicalTarget := demoRoot
  canonicalGitRoot := demoRoot
  digest64 := gitRootDigest64 demoRoot
  hash12 := gitRootHash12 demoRoot
  containerName := containerNameFromCanonicalRootAndHash demoRoot.asStr (gitRootHash12 demoRoot)

def demoLabelInput : ManagedSessionLabelInput :=
  .fromWorkspace demoWorkspace (defaultImage .opencode) .opencode []

/-- A container that passes every check of its status. -/
def demoContainer (id : String) (labels : LabelMap) : PodmanContainer where
  id
  names := none
  labels
  running := true
  mounts := [⟨.volume, NIX_CACHE_DESTINATION⟩]
  ports := .ofList [("4096/tcp", some [PodmanPortBinding.mk none (some "40000")])]
  workdir := demoRoot
  command := []
  created := true

/-- A managed session and a transient run of one root. -/
def demoState : PodmanState where
  containers := [demoContainer "managed" (managedSessionLabels demoLabelInput),
    demoContainer "transient" (transientRunLabels demoLabelInput)]
  distinct := by decide

/-- `connect` accepts the managed session, which `ps` shows as a duplicate. -/
theorem not_connectAgrees : ¬ ConnectAgrees demoState demoProbe demoWorkspace := by
  have hin : isConnectCandidate demoRoot (demoContainer "managed"
    (managedSessionLabels demoLabelInput)) = true := by decide +kernel
  have hout : isConnectCandidate demoRoot (demoContainer "transient"
    (transientRunLabels demoLabelInput)) = false := by decide +kernel
  have hbelongs : belongs demoRoot (record demoProbe (demoContainer "managed"
    (managedSessionLabels demoLabelInput)) .managed) = true := by decide +kernel
  have hcollides : collides demoRoot (record demoProbe (demoContainer "managed"
    (managedSessionLabels demoLabelInput)) .managed) = false := by decide +kernel
  have hclaim : (claimantsOf demoState demoProbe demoRoot).length = 2 := by decide +kernel
  have hcandidates : demoState.containers.filter (isConnectCandidate demoRoot) =
      [demoContainer "managed" (managedSessionLabels demoLabelInput)] := by
    rw [demoState, List.filter_cons_of_pos hin, List.filter_cons_of_neg (by rw [hout]; decide)]
    rfl
  have hcol : connectCollides demoState demoProbe demoWorkspace.canonicalGitRoot = false := by
    rw [connectCollides]
    change (List.filter (isConnectCandidate demoRoot) _).any _ = _
    rw [hcandidates, List.any_cons]
    exact (Bool.or_eq_false_iff).2 ⟨hcollides, rfl⟩
  have hview : connectView demoState demoProbe demoWorkspace.canonicalGitRoot =
      [demoContainer "managed" (managedSessionLabels demoLabelInput)] := by
    rw [connectView]
    change (List.filter (isConnectCandidate demoRoot) _).filter _ = _
    rw [hcandidates]
    exact List.filter_cons_of_pos hbelongs
  rintro ⟨-, hdup⟩
  have herr := (connectSession_duplicate hcol).1 (hdup (by rw [← hclaim]; rfl))
  rw [hview, List.length_singleton] at herr
  omega

end Agentbox.Session.ConnectView
