import Agentbox.Session.ConnectView

/-! # The sessions of health

`session/target/health.rs`: which managed sessions a run of `health` looks at. Without a target
these are the running ones; a target, a directory or a prefix of a stable id, has to be matched by
one session alone, and that one has to run.

* `isRunning_shownRecord`: a session is shown as running when its container serves alone.
* `selectSessions_running`, `selectSessions_target`: what is selected of the containers.
* `connectSession_iff`: the session of a root, for `connect` and for `health`. -/

namespace Agentbox.Session.HealthTarget

open Agentbox.Base.Text Agentbox.Base.Path Agentbox.Base.Errors Agentbox.Files.Snapshot
  Agentbox.Metadata.Labels Agentbox.Podman.Model Agentbox.Podman.State Agentbox.Workspace.Identity
  Agentbox.Session.Record Agentbox.Session.Inspected Agentbox.Session.Discovery
  Agentbox.Session.Status Agentbox.Session.Collected Agentbox.Session.ScopedDiscovery
  Agentbox.Session.Views Agentbox.Session.Claimants Agentbox.Session.Selection
  Agentbox.Session.Connectable Agentbox.Session.ConnectView

inductive HealthSessionTargetPlan
  | runningSessions
  | stableIdPrefix (idPrefix : String)
  | workspace (gitRoot : Utf8Path)
  deriving DecidableEq, Repr

def SessionStatus.asStr : SessionStatus → String
  | .running => "running"
  | .orphaned => "orphaned"
  | .duplicate => "duplicate"
  | .failed _ => "failed"

/-- The selected session, if it runs. -/
def requireRunning (session : SessionRecord) (fallback : String) :
    Except Error (List SessionRecord) :=
  if session.isRunning then .ok [session]
  else .error (.msg ("managed session `" ++ session.stableId.getD fallback ++ "` is `" ++
    SessionStatus.asStr session.status ++ "`; health only probes running sessions"))

def singleWorkspaceMatch (gitRoot : Utf8Path) :
    List SessionRecord → Except Error (Option SessionRecord)
  | [] => .ok none
  | [session] => .ok (some session)
  | _ => .error (.msg ("workspace target `" ++ gitRoot.asStr ++ "` matches multiple managed " ++
      "sessions; health requires a single running session"))

def selectWorkspaceHealthSession (sessions : List SessionRecord) (gitRoot : Utf8Path) :
    Except Error (List SessionRecord) := do
  match ← singleWorkspaceMatch gitRoot (exactGitRootMatches sessions gitRoot) with
  | none => throw (.msg ("no running managed session matches target `" ++ gitRoot.asStr ++ "`"))
  | some session => requireRunning session gitRoot.asStr

def intoSingleSession (selection : StableIdPrefixSelection) : Option SessionRecord :=
  if selection.sessions.length = 1 then selection.sessions.head? else none

def selectStableIdHealthSession (sessions : List SessionRecord) (idPrefix : String) :
    Except Error (List SessionRecord) := do
  let selection ← selectStableIdPrefix sessions idPrefix
  match intoSingleSession selection with
  | none => throw (.msg ("stable id `" ++ selection.id ++ "` matches multiple managed sessions; " ++
      "health requires a single running session"))
  | some session => requireRunning session selection.id

namespace HealthSessionTargetPlan

def fromTarget (host : Host) : Option String → Except Error HealthSessionTargetPlan
  | some target =>
    if host.exists_ (.utf8 ⟨target⟩) then
      (resolveWorkspaceIdentity host (.utf8 ⟨target⟩)).map fun w => workspace w.canonicalGitRoot
    else .ok (stableIdPrefix target)
  | none => .ok runningSessions

def selectSessions (sessions : List SessionRecord) :
    HealthSessionTargetPlan → Except Error (List SessionRecord)
  | runningSessions => .ok (sessions.filter SessionRecord.isRunning)
  | stableIdPrefix idPrefix => selectStableIdHealthSession sessions idPrefix
  | workspace gitRoot => selectWorkspaceHealthSession sessions gitRoot

/-- The session is one that the target means. -/
def isMeant : HealthSessionTargetPlan → SessionRecord → Bool
  | runningSessions, _ => true
  | stableIdPrefix idPrefix, session => idPrefix != "" && matchesIdPrefix idPrefix session
  | workspace gitRoot, session => session.canonicalGitRoot == some gitRoot

end HealthSessionTargetPlan

open HealthSessionTargetPlan

/-- The containers that `health` looks at. -/
def managedContainers (s : PodmanState) : List PodmanContainer :=
  s.containers.filter fun c => c.kind == some .managed

/-- Their sessions, as discovery returns them. -/
def managedSessions (probe : GitRootProbe) (s : PodmanState) : List SessionRecord :=
  markDuplicateSessions ((managedContainers s).map fun c => record probe c .managed)

/-- The container runs as a managed session, and no other managed one counts for its root. -/
structure ServesAlone (probe : GitRootProbe) (s : PodmanState) (c : PodmanContainer) : Prop where
  mem : c ∈ managedContainers s
  running : (record probe c .managed).status = .running
  alone : ∀ root, (record probe c .managed).canonicalGitRoot = some root →
    ∀ c' ∈ managedContainers s, countsFor probe root c' = true → c' = c

variable {host : Host} {probe : GitRootProbe} {s : PodmanState} {c : PodmanContainer}
  {gitRoot : Utf8Path} {plan : HealthSessionTargetPlan} {sessions selected : List SessionRecord}
  {session : SessionRecord}

/-! ### Selecting -/

theorem requireRunning_eq_ok {fallback : String} :
    requireRunning session fallback = .ok selected ↔
      session.isRunning = true ∧ selected = [session] := by
  unfold requireRunning
  by_cases h : session.isRunning = true
  · rw [if_pos h, Except.ok.injEq, eq_comm, and_iff_right h]
  · rw [if_neg h]
    simp [h]

theorem selectWorkspaceHealthSession_eq_ok :
    selectWorkspaceHealthSession sessions gitRoot = .ok selected ↔ ∃ session,
      sessions.filter (workspace gitRoot).isMeant = [session] ∧ session.isRunning = true ∧
        selected = [session] := by
  have hmeant : exactGitRootMatches sessions gitRoot =
    sessions.filter (workspace gitRoot).isMeant := rfl
  unfold selectWorkspaceHealthSession
  rw [hmeant]
  rcases sessions.filter (workspace gitRoot).isMeant with _ | ⟨session, _ | ⟨session', l⟩⟩
  · refine iff_of_false (fun h => by cases h) ?_
    simp
  · change requireRunning session gitRoot.asStr = .ok selected ↔ _
    rw [requireRunning_eq_ok]
    constructor
    · intro h
      exact ⟨session, rfl, h⟩
    · rintro ⟨_, heq, h⟩
      cases heq
      exact h
  · refine iff_of_false (fun h => by cases h) ?_
    simp

/-- A prefix selects one session exactly when it is matched by one alone. -/
theorem filter_isMeant_stableId {idPrefix : String} :
    sessions.filter (stableIdPrefix idPrefix).isMeant = [session] ↔
      ∃ selection, selectStableIdPrefix sessions idPrefix = .ok selection ∧
        selection.sessions = [session] := by
  constructor
  · intro h
    have hmem : session ∈ sessions.filter (stableIdPrefix idPrefix).isMeant := by
      rw [h]
      exact List.mem_cons_self
    obtain ⟨hsession, hmeant⟩ := List.mem_filter.1 hmem
    obtain ⟨hne, hmatches⟩ := Bool.and_eq_true_iff.1 hmeant
    obtain ⟨id, hid⟩ := Option.isSome_iff_exists.1 hmatches
    have honly : ∀ s ∈ sessions, ∀ k,
        hasIdPrefix (toAsciiLowercase idPrefix) s = some k → s = session := by
      intro s hs k hk
      have hs' : s ∈ sessions.filter (stableIdPrefix idPrefix).isMeant := by
        refine List.mem_filter.2 ⟨hs, Bool.and_eq_true_iff.2 ⟨hne, ?_⟩⟩
        exact Option.isSome_iff_exists.2 ⟨k, hk⟩
      rw [h] at hs'
      exact List.mem_singleton.1 hs'
    refine ⟨⟨id, sessions.filter fun s => s.stableId = some id⟩,
      selectStableIdPrefix_ok_iff.2 ⟨bne_iff_ne.1 hne, fun k => ⟨?_, ?_⟩, rfl⟩, ?_⟩
    · rintro ⟨s, hs, hk⟩
      have hk' := honly s hs k hk ▸ hk
      rw [hid] at hk'
      exact (Option.some.inj hk').symm
    · rintro rfl
      exact ⟨session, hsession, hid⟩
    · rw [← h]
      refine List.filter_congr fun s hs => ?_
      rw [Bool.eq_iff_iff, decide_eq_true_eq]
      constructor
      · intro hstable
        refine Bool.and_eq_true_iff.2 ⟨hne, Option.isSome_iff_exists.2 ⟨id, ?_⟩⟩
        exact hasIdPrefix_eq_some.2 ⟨hstable, (hasIdPrefix_eq_some.1 hid).2⟩
      · intro hs'
        obtain ⟨k, hk⟩ := Option.isSome_iff_exists.1 (Bool.and_eq_true_iff.1 hs').2
        rw [honly s hs k hk]
        exact (hasIdPrefix_eq_some.1 hid).1
  · rintro ⟨selection, hselection, hone⟩
    obtain ⟨-, hfilter, -⟩ := selectStableIdPrefix_spec hselection
    have hne : (idPrefix != "") = true := by
      obtain ⟨id, l⟩ := selection
      exact bne_iff_ne.2 (selectStableIdPrefix_ok_iff.1 hselection).1
    rw [← hone, hfilter]
    refine List.filter_congr fun s _ => ?_
    change (idPrefix != "" && matchesIdPrefix idPrefix s) = _
    rw [hne, Bool.true_and]

theorem intoSingleSession_eq_some {selection : StableIdPrefixSelection} :
    intoSingleSession selection = some session ↔ selection.sessions = [session] := by
  unfold intoSingleSession
  rcases selection.sessions with _ | ⟨a, _ | ⟨b, l⟩⟩
  · simp
  · simp
  · simp

theorem selectStableIdHealthSession_eq_ok {idPrefix : String} :
    selectStableIdHealthSession sessions idPrefix = .ok selected ↔ ∃ session,
      sessions.filter (stableIdPrefix idPrefix).isMeant = [session] ∧ session.isRunning = true ∧
        selected = [session] := by
  unfold selectStableIdHealthSession
  rw [bind_eq_ok]
  simp only [filter_isMeant_stableId]
  constructor
  · rintro ⟨selection, hselection, h⟩
    rcases hsingle : intoSingleSession selection with _ | session
    · rw [hsingle] at h
      cases h
    · rw [hsingle] at h
      exact ⟨session, ⟨selection, hselection, intoSingleSession_eq_some.1 hsingle⟩,
        requireRunning_eq_ok.1 h⟩
  · rintro ⟨session, ⟨selection, hselection, hone⟩, h⟩
    refine ⟨selection, hselection, ?_⟩
    rw [intoSingleSession_eq_some.2 hone]
    exact requireRunning_eq_ok.2 h

/-- A target selects the one session that it means, if that runs. -/
theorem selectSessions_eq_ok (hplan : plan ≠ .runningSessions) :
    plan.selectSessions sessions = .ok selected ↔ ∃ session,
      sessions.filter plan.isMeant = [session] ∧ session.isRunning = true ∧
        selected = [session] := by
  rcases plan with _ | idPrefix | gitRoot
  · exact absurd rfl hplan
  · exact selectStableIdHealthSession_eq_ok
  · exact selectWorkspaceHealthSession_eq_ok

/-! ### What runs -/

theorem mem_managedContainers :
    c ∈ managedContainers s ↔ c ∈ s.containers ∧ c.kind = some .managed := by
  rw [managedContainers, List.mem_filter]
  refine and_congr_right fun _ => ?_
  rw [beq_iff_eq]

theorem discovered_managed (probe : GitRootProbe) (s : PodmanState) :
    discovered (s.listing true) .all .managedSessions s.inspectOne probe =
      .ok (managedSessions probe s) := by
  have hrecords : records probe s .all .managedSessions =
      (managedContainers s).map fun c => record probe c .managed := by
    rw [records, inspectedContainers, List.map_filterMap, ← List.filterMap_eq_map,
      managedContainers]
    have hfilter : s.containers.filter (isCandidate .all .managedSessions) =
        s.containers.filter fun c => c.kind == some .managed := by
      refine List.filter_congr fun c _ => ?_
      rcases hkind : c.kind with _ | kind <;>
        simp [isCandidate, hkind, ContainerDiscoveryScope.includes,
          SessionDiscoveryScope.shouldInspectPsCandidate]
    rw [hfilter]
    refine List.filterMap_congr fun c hc => ?_
    rw [owned, eq_of_beq (List.mem_filter.1 hc).2]
    rfl
  have hview := discovered_listing s .all .managedSessions probe
  rw [view, collected_all, hrecords] at hview
  exact hview

theorem nodup_managedContainers (s : PodmanState) : (managedContainers s).Nodup :=
  (PodmanState.nodup_containers s).filter _

theorem claimants_managed (root : Utf8Path) :
    claimants ((managedContainers s).map fun c => record probe c .managed) root.components =
      ((managedContainers s).filter (countsFor probe root)).length := by
  rw [claimants, List.filter_map, List.length_map]
  congr 1
  refine List.filter_congr fun c hc => ?_
  rw [Function.comp_apply, Bool.eq_iff_iff, decide_eq_true_eq, countedRoot_record, countsFor,
    (mem_managedContainers.1 hc).2, Option.any_some]

theorem length_le_one_iff {α : Type} {l : List α} (h : l.Nodup) :
    l.length ≤ 1 ↔ ∀ a ∈ l, ∀ b ∈ l, a = b := by
  rcases l with _ | ⟨a, _ | ⟨b, l⟩⟩
  · simp
  · simp
  · refine iff_of_false (by simp) fun hall => ?_
    have hab : a = b := hall a List.mem_cons_self b (List.mem_cons_of_mem _ List.mem_cons_self)
    exact (List.nodup_cons.1 h).1 (hab ▸ List.mem_cons_self)

/-- The record of a managed container, as discovery returns it. -/
def shownRecord (probe : GitRootProbe) (s : PodmanState) (c : PodmanContainer) : SessionRecord :=
  if isDuplicate ((managedContainers s).map fun c => record probe c .managed)
      (record probe c .managed) then (record probe c .managed).markDuplicate
  else record probe c .managed

theorem managedSessions_eq (probe : GitRootProbe) (s : PodmanState) :
    managedSessions probe s = (managedContainers s).map (shownRecord probe s) := by
  rw [managedSessions, markDuplicateSessions_eq, List.map_map]
  rfl

/-- What a target means depends on the labels alone. -/
theorem isMeant_congr (plan : HealthSessionTargetPlan) {r r' : SessionRecord}
    (h : r.metadata = r'.metadata) : plan.isMeant r = plan.isMeant r' := by
  unfold isMeant matchesIdPrefix hasIdPrefix SessionRecord.stableId SessionRecord.gitRootHash
    SessionRecord.canonicalGitRoot
  rcases plan with _ | idPrefix | gitRoot
  · rfl
  · simp only [h]
  · simp only [h]

theorem metadata_shownRecord (probe : GitRootProbe) (s : PodmanState) (c : PodmanContainer) :
    (shownRecord probe s c).metadata = (record probe c .managed).metadata := by
  unfold shownRecord
  split_ifs <;> rfl

/-- A container that runs counts for its root, so it is no duplicate exactly when it is alone. -/
theorem isDuplicate_managed (hc : c ∈ managedContainers s)
    (hrun : (record probe c .managed).status = .running) :
    isDuplicate ((managedContainers s).map fun c => record probe c .managed)
        (record probe c .managed) = false ↔
      ∀ root, (record probe c .managed).canonicalGitRoot = some root →
        ∀ c' ∈ managedContainers s, countsFor probe root c' = true → c' = c := by
  have hcounted : ∀ root, (record probe c .managed).canonicalGitRoot = some root →
      countsFor probe root c = true ∧
        countedRoot (record probe c .managed) = some root.components := by
    intro root hroot
    have hself : (!(record probe c .managed).status.isFailed &&
        (record probe c .managed).canonicalGitRoot == some root) = true := by
      rw [hrun, hroot, some_beq_some, Utf8Path.beq_self]
      rfl
    rw [countsFor, (mem_managedContainers.1 hc).2, Option.any_some]
    exact ⟨hself, countedRoot_record.2 hself⟩
  have hnodup : ∀ root, ((managedContainers s).filter (countsFor probe root)).Nodup := fun root =>
    (nodup_managedContainers s).filter _
  constructor
  · intro hdup root hroot c' hc' hcounts
    rw [isDuplicate, (hcounted root hroot).2, Option.any_some, decide_eq_false_iff_not,
      claimants_managed, not_lt, length_le_one_iff (hnodup root)] at hdup
    exact hdup c' (List.mem_filter.2 ⟨hc', hcounts⟩) c
      (List.mem_filter.2 ⟨hc, (hcounted root hroot).1⟩)
  · intro halone
    rcases hroot : (record probe c .managed).canonicalGitRoot with _ | root
    · have hnone : countedRoot (record probe c .managed) = none := by
        unfold countedRoot
        rw [hroot]
        split_ifs <;> rfl
      rw [isDuplicate, hnone]
      rfl
    · rw [isDuplicate, (hcounted root hroot).2, Option.any_some, decide_eq_false_iff_not,
        claimants_managed, not_lt, length_le_one_iff (hnodup root)]
      intro a ha b hb
      obtain ⟨ha, hacounts⟩ := List.mem_filter.1 ha
      obtain ⟨hb, hbcounts⟩ := List.mem_filter.1 hb
      rw [halone root hroot a ha hacounts, halone root hroot b hb hbcounts]

/-- A session is shown as running exactly when its container serves alone. -/
theorem isRunning_shownRecord (hc : c ∈ managedContainers s) :
    (shownRecord probe s c).isRunning = true ↔ ServesAlone probe s c := by
  have hrunning : ∀ r : SessionRecord, r.isRunning = true ↔ r.status = .running := by
    intro r
    unfold SessionRecord.isRunning SessionStatus.isRunning
    cases r.status <;> simp
  rw [hrunning]
  unfold shownRecord
  split_ifs with hdup
  · refine iff_of_false (fun h => by cases h) fun h => ?_
    rw [(isDuplicate_managed hc h.running).2 h.alone] at hdup
    cases hdup
  · rw [Bool.not_eq_true] at hdup
    constructor
    · intro hrun
      exact ⟨hc, hrun, (isDuplicate_managed hc hrun).1 hdup⟩
    · intro h
      exact h.running

theorem ServesAlone.shownRecord_eq (h : ServesAlone probe s c) :
    shownRecord probe s c = record probe c .managed := by
  rw [shownRecord, (isDuplicate_managed h.mem h.running).2 h.alone]
  rfl

/-- Without a target, the sessions are those of the containers that serve alone. -/
theorem selectSessions_running (probe : GitRootProbe) (s : PodmanState) :
    ∃ l : List PodmanContainer, l.Nodup ∧ (∀ c, c ∈ l ↔ ServesAlone probe s c) ∧
      runningSessions.selectSessions (managedSessions probe s) =
        .ok (l.map fun c => record probe c .managed) := by
  have hmem : ∀ c, c ∈ (managedContainers s).filter (fun c => (shownRecord probe s c).isRunning) ↔
      ServesAlone probe s c := by
    intro c
    rw [List.mem_filter]
    constructor
    · intro h
      exact (isRunning_shownRecord h.1).1 h.2
    · intro h
      exact ⟨h.mem, (isRunning_shownRecord h.mem).2 h⟩
  refine ⟨_, (nodup_managedContainers s).filter _, hmem, ?_⟩
  rw [selectSessions, managedSessions_eq, List.filter_map]
  refine congrArg _ (List.map_congr_left fun c hc => ?_)
  exact ((hmem c).1 hc).shownRecord_eq

/-- A target selects the session of the one managed container that it means, if that serves
alone. -/
theorem selectSessions_target (hplan : plan ≠ .runningSessions) :
    plan.selectSessions (managedSessions probe s) = .ok selected ↔ ∃ c,
      (managedContainers s).filter (fun c => plan.isMeant (record probe c .managed)) = [c] ∧
        ServesAlone probe s c ∧ selected = [record probe c .managed] := by
  have hmeant : ∀ c, plan.isMeant (shownRecord probe s c) =
      plan.isMeant (record probe c .managed) := by
    intro c
    exact isMeant_congr plan (metadata_shownRecord probe s c)
  have hfilter : (managedSessions probe s).filter plan.isMeant =
      ((managedContainers s).filter fun c => plan.isMeant (record probe c .managed)).map
        (shownRecord probe s) := by
    rw [managedSessions_eq, List.filter_map]
    refine congrArg _ (List.filter_congr fun c _ => hmeant c)
  rw [selectSessions_eq_ok hplan, hfilter]
  constructor
  · rintro ⟨session, hone, hrun, rfl⟩
    obtain ⟨c, hc, rfl⟩ := List.map_eq_singleton_iff.1 hone
    have hmem : c ∈ managedContainers s :=
      (List.mem_filter.1 (hc ▸ List.mem_singleton_self c)).1
    have halone := (isRunning_shownRecord hmem).1 hrun
    exact ⟨c, hc, halone, by rw [halone.shownRecord_eq]⟩
  · rintro ⟨c, hc, halone, rfl⟩
    refine ⟨shownRecord probe s c, by rw [hc]; rfl, (isRunning_shownRecord halone.mem).2 halone, ?_⟩
    rw [halone.shownRecord_eq]

/-! ### The view of connect -/

/-- The two labels of the root stand on the same managed containers. -/
def LabelsAgree (probe : GitRootProbe) (s : PodmanState) (gitRoot : Utf8Path) : Prop :=
  ∀ c ∈ managedContainers s,
    ((record probe c .managed).canonicalGitRoot == some gitRoot) = true ↔
      (record probe c .managed).gitRootHash = some (gitRootHash12 gitRoot)

/-- Where the labels agree, `connect` sees the containers that the root means for `health`. -/
theorem connectView_eq (h : LabelsAgree probe s gitRoot) :
    connectCollides s probe gitRoot = false ∧ connectView s probe gitRoot =
      (managedContainers s).filter fun c =>
        (workspace gitRoot).isMeant (record probe c .managed) := by
  have hhash : ∀ c : PodmanContainer, (record probe c .managed).gitRootHash =
      requiredLabelValue c.listed.labels LABEL_GIT_ROOT_HASH := fun _ => rfl
  constructor
  · rw [connectCollides, List.any_eq_false]
    intro c hc hcollides
    obtain ⟨hmem, hcand⟩ := List.mem_filter.1 hc
    have hmanaged := mem_managedContainers.2 ⟨hmem, kind_of_isConnectCandidate hcand⟩
    obtain ⟨hsame, hother⟩ := Bool.and_eq_true_iff.1 hcollides
    obtain ⟨root, hroot, hne⟩ := (Option.any_eq_true _ _).1 hother
    have heq := (h c hmanaged).2 (eq_of_beq hsame)
    rw [hroot, some_beq_some] at heq
    rw [heq] at hne
    cases hne
  · rw [connectView, managedContainers, List.filter_filter, List.filter_filter]
    refine List.filter_congr fun c hc => ?_
    by_cases hkind : c.kind = some .managed
    · have hmanaged := mem_managedContainers.2 ⟨hc, hkind⟩
      have hcand : isConnectCandidate gitRoot c =
          (SessionDiscoveryScope.forGitRoot gitRoot).shouldInspectPsCandidate c.listed := by
        rw [isConnectCandidate, isCandidate, hkind]
        rfl
      rw [hkind, beq_self_eq_true, Bool.and_true, hcand]
      by_cases hroot : ((record probe c .managed).canonicalGitRoot == some gitRoot) = true
      · have hlabel := (h c hmanaged).1 hroot
        rw [hhash] at hlabel
        have hin : (SessionDiscoveryScope.forGitRoot gitRoot).shouldInspectPsCandidate c.listed =
            true := by
          simp [SessionDiscoveryScope.forGitRoot, SessionDiscoveryScope.shouldInspectPsCandidate,
            GitRootDiscoveryScope.shouldInspectPsCandidate, hlabel]
        rw [hin, belongs, hroot]
        exact hroot.symm
      · have hlabel := mt (h c hmanaged).2 hroot
        rw [Bool.not_eq_true] at hroot
        have hout : belongs gitRoot (record probe c .managed) = false := by
          rw [belongs, hroot, beq_eq_false_iff_ne.2 hlabel, Bool.and_false]
          rfl
        rw [hout, Bool.false_and]
        exact hroot.symm
    · have hout : isConnectCandidate gitRoot c = false := by
        by_contra hin
        exact hkind (kind_of_isConnectCandidate (Bool.not_eq_false _ ▸ hin))
      rw [hout, Bool.and_false, beq_eq_false_iff_ne.2 hkind, Bool.and_false]

/-- Where the labels agree, a session is accepted by `connect` exactly when the root selects it. -/
theorem connectSession_iff {workspace : WorkspaceIdentity}
    (h : LabelsAgree probe s workspace.canonicalGitRoot) :
    (∃ accepted, connectSession s probe workspace = .ok accepted ∧ accepted.session = session) ↔
      (HealthSessionTargetPlan.workspace workspace.canonicalGitRoot).selectSessions
        (managedSessions probe s) = .ok [session] := by
  obtain ⟨hcol, hview⟩ := connectView_eq h
  rw [selectSessions_target (by simp)]
  constructor
  · rintro ⟨accepted, haccepted, rfl⟩
    obtain ⟨-, c, hone, hsession, hrun⟩ := connectSession_ok haccepted
    rw [hview] at hone
    have hmem := List.mem_filter.1 (hone ▸ List.mem_singleton_self c)
    refine ⟨c, hone, ⟨hmem.1, hrun, fun root hroot c' hc' hcounts => ?_⟩, by rw [hsession]⟩
    have hmeant : ((record probe c .managed).canonicalGitRoot ==
      some workspace.canonicalGitRoot) = true := hmem.2
    rw [hroot, some_beq_some] at hmeant
    have hmem' : c' ∈ (managedContainers s).filter fun c =>
        (HealthSessionTargetPlan.workspace workspace.canonicalGitRoot).isMeant
          (record probe c .managed) := by
      refine List.mem_filter.2 ⟨hc', ?_⟩
      rw [countsFor, (mem_managedContainers.1 hc').2, Option.any_some, Bool.and_eq_true] at hcounts
      rcases hroot' : (record probe c' .managed).canonicalGitRoot with _ | root'
      · rw [hroot'] at hcounts
        cases hcounts.2
      · have hsame := hcounts.2
        rw [hroot', some_beq_some, Utf8Path.beq_iff] at hsame
        rw [Utf8Path.beq_iff] at hmeant
        rw [isMeant, hroot', some_beq_some, Utf8Path.beq_iff, hsame, hmeant]
    rw [hone] at hmem'
    exact List.mem_singleton.1 hmem'
  · rintro ⟨c, hone, halone, heq⟩
    rw [← hview] at hone
    obtain ⟨accepted, hok, hsession⟩ := connectSession_of_single hcol hone halone.running
    exact ⟨accepted, hok, hsession.trans (List.cons.inj heq).1.symm⟩

end Agentbox.Session.HealthTarget
