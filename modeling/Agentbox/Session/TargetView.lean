import Agentbox.Session.Claimants
import Agentbox.Session.Target

/-! # The session of a restart

What a restart selects under the lock, as a function of the file system and of the containers: the
one session that is shown for the target, when it is resolved again. -/

namespace Agentbox.Session.TargetView

open Agentbox.Base.Path Agentbox.Base.Errors Agentbox.Files.Snapshot Agentbox.Metadata.Labels
  Agentbox.Podman.Model Agentbox.Podman.State Agentbox.Workspace.Identity Agentbox.Session.Record
  Agentbox.Session.Discovery Agentbox.Session.Status Agentbox.Session.Collected
  Agentbox.Session.ScopedDiscovery Agentbox.Session.Views Agentbox.Session.Claimants
  Agentbox.Session.Selection Agentbox.Session.Target

/-- What a resolved target selects of what is shown. -/
def selects : ResolvedSessionTarget → SessionRecord → Bool
  | .resolvedGitRoot gitRoot, session => claims gitRoot session
  | .exactStoredGitRootPath gitRoot, session => session.canonicalGitRoot == some gitRoot
  | .stableId idPrefix, session => matchesIdPrefix idPrefix session

/-- `matching_sessions`, of what is shown. -/
def matchingIn (host : Host) (probe : GitRootProbe) (s : PodmanState) (locked : Utf8Path)
    (input : SessionTargetInput) : Except Error (List SessionRecord) := do
  match ← input.resolve host with
  | .resolvedGitRoot gitRoot => do
    requireLockedRestartTargetUnchanged locked gitRoot
    view probe s (.forGitRoot locked) .agentboxOwned
  | .exactStoredGitRootPath gitRoot => do
    requireLockedRestartTargetUnchanged locked gitRoot
    return exactGitRootMatches (shown probe s) gitRoot
  | .stableId idPrefix => do
    let selection ← selectAgentboxStableIdTarget (shown probe s) idPrefix
    requireStableIdStillMatchesLockedRoot locked selection.sessions
    return selection.sessions

/-- `select_session_candidate`, of what is shown. -/
def candidateIn (host : Host) (probe : GitRootProbe) (s : PodmanState) (locked : Utf8Path)
    (input : SessionTargetInput) : Except Error SessionRecord := do
  let sessions ← matchingIn host probe s locked input
  requireSingleRestartTargetMatch sessions input

variable {host : Host} {probe : GitRootProbe} {s : PodmanState} {locked gitRoot : Utf8Path}
  {input : SessionTargetInput} {session : SessionRecord}

theorem candidateIn_eq_ok : candidateIn host probe s locked input = .ok session ↔
    matchingIn host probe s locked input = .ok [session] := by
  unfold candidateIn
  rw [bind_eq_ok]
  constructor
  · rintro ⟨sessions, hsessions, h⟩
    rw [hsessions]
    unfold requireSingleRestartTargetMatch at h
    split at h
    · cases h
    · cases h
      rfl
    · cases h
  · intro h
    exact ⟨_, h, rfl⟩

theorem beq_of_unchanged {u : Unit}
    (h : requireLockedRestartTargetUnchanged locked gitRoot = .ok u) : (locked == gitRoot) = true := by
  unfold requireLockedRestartTargetUnchanged at h
  split_ifs at h with heq
  exact heq

/-- The directory of a target is resolved to a root in normal spelling. -/
theorem isNormal_of_resolve (h : input.resolve host = .ok (.resolvedGitRoot gitRoot)) :
    gitRoot.IsNormal := by
  rcases input with path | id
  · change resolveCliSessionTarget host path = _ at h
    unfold resolveCliSessionTarget at h
    split_ifs at h
    · rcases hw : resolveWorkspaceIdentity host path with e | workspace
      · rw [hw] at h
        cases h
      · rw [hw] at h
        cases h
        exact (isResolved_of_ok hw).gitRoot_isNormal
    · unfold classifyMissingCliSessionTarget at h
      split_ifs at h
      · rcases hpath : path.toUtf8 with e | p
        · rw [hpath] at h
          cases h
        · rw [hpath] at h
          cases h
      · split at h
        · cases h
        · cases h
  · cases h

/-- What is selected under the lock is all that is shown for the target, and a root label on it is the
locked root. -/
theorem candidateIn_spec (hlocked : locked.IsNormal) (hroots : CanonicalRoots s)
    (h : candidateIn host probe s locked input = .ok session) :
    ∃ resolved, input.resolve host = .ok resolved ∧
      (shown probe s).filter (selects resolved) = [session] ∧
      ∀ root, session.canonicalGitRoot = some root → (root == locked) = true := by
  rw [candidateIn_eq_ok] at h
  unfold matchingIn at h
  obtain ⟨resolved, hresolved, h⟩ := bind_eq_ok.1 h
  refine ⟨resolved, hresolved, ?_⟩
  rcases resolved with gitRoot | gitRoot | idPrefix
  · obtain ⟨_, hsame, hview⟩ := bind_eq_ok.1 h
    have hroot : locked = gitRoot :=
      Utf8Path.eq_of_beq hlocked (isNormal_of_resolve hresolved) (beq_of_unchanged hsame)
    subst hroot
    have hfilter := (view_forGitRoot hlocked hroots hview).symm
    refine ⟨hfilter, fun root hsome => ?_⟩
    have hclaims := (List.mem_filter.1 (hfilter ▸ List.mem_singleton_self session)).2
    rw [claims, hsome, some_beq_some] at hclaims
    by_contra hne
    simp [hne] at hclaims
  · obtain ⟨_, hsame, hmatches⟩ := bind_eq_ok.1 h
    have hfilter : (shown probe s).filter (selects (.exactStoredGitRootPath gitRoot)) =
        [session] := Except.ok.inj hmatches
    refine ⟨hfilter, fun root hsome => ?_⟩
    have hmem : session ∈ (shown probe s).filter (selects (.exactStoredGitRootPath gitRoot)) :=
      hfilter ▸ List.mem_singleton_self session
    have hselected : (session.canonicalGitRoot == some gitRoot) = true := (List.mem_filter.1 hmem).2
    rw [hsome, some_beq_some] at hselected
    rw [Utf8Path.beq_iff] at hselected ⊢
    rw [hselected, Utf8Path.beq_iff.1 (beq_of_unchanged hsame)]
  · obtain ⟨selection, hselection, h⟩ := bind_eq_ok.1 h
    obtain ⟨_, hstill, hsessions⟩ := bind_eq_ok.1 h
    have hsessions : selection.sessions = [session] := Except.ok.inj hsessions
    obtain ⟨-, hfilter, -⟩ := selectStableIdPrefix_spec hselection
    refine ⟨hfilter.symm.trans hsessions, fun root hsome => ?_⟩
    unfold requireStableIdStillMatchesLockedRoot at hstill
    split_ifs at hstill with hany
    rw [hsessions, List.any_cons, List.any_nil, Bool.or_false, hsome, some_beq_some] at hany
    exact hany

end Agentbox.Session.TargetView
