import Agentbox.Session.Discovery
import Agentbox.Session.Status

/-! # What discovery returns

Discovery inspects the candidates of its scope in order, and what it returns is a function of their
records: those that belong to the root, with the duplicates marked, or a collision error. -/

namespace Agentbox.Session.Collected

open Agentbox.Base.Text Agentbox.Base.Path Agentbox.Base.Errors Agentbox.Lib.Entries
  Agentbox.Lib.Program Agentbox.Files.Snapshot Agentbox.Metadata.Labels Agentbox.Podman.Model
  Agentbox.Workspace.Identity Agentbox.Session.Record Agentbox.Session.Inspected
  Agentbox.Session.Discovery Agentbox.Session.Status

variable {S : Sig}

/-! ### Inspecting, then collecting -/

/-- The candidates that a discovery inspects. -/
def candidates (containers : List PodmanPsContainer) (scope : SessionDiscoveryScope)
    (containerScope : ContainerDiscoveryScope) : List (PodmanPsContainer × AgentboxContainerKind) :=
  (containers.filterMap (psCandidate containerScope)).filter fun candidate =>
    scope.shouldInspectPsCandidate candidate.1

/-- The records of the candidates, inspected in order. -/
def inspectAll (inspectContainer : String → Prog S Error PodmanContainerInspect)
    (probe : GitRootProbe) : List (PodmanPsContainer × AgentboxContainerKind) →
      Prog S Error (List SessionRecord)
  | [] => .done []
  | (container, kind) :: l => (inspectContainer container.id).bind fun inspect =>
    (inspectAll inspectContainer probe l).bind fun records =>
      .done (buildSessionRecord container inspect kind probe :: records)

def collected (scope : SessionDiscoveryScope) (records : List SessionRecord) :
    Except Error (List SessionRecord) :=
  (records.foldl SessionCollector.collect { scope }).finish

theorem scope_collect (c : SessionCollector) (record : SessionRecord) :
    (c.collect record).scope = c.scope := by
  unfold SessionCollector.collect
  split
  · rfl
  · split <;> rfl

theorem collectCandidates_eq (inspectContainer : String → Prog S Error PodmanContainerInspect)
    (probe : GitRootProbe) : ∀ (l : List (PodmanPsContainer × AgentboxContainerKind))
      (c : SessionCollector), collectCandidates inspectContainer probe l c =
        (inspectAll inspectContainer probe
          (l.filter fun candidate => c.scope.shouldInspectPsCandidate candidate.1)).bind fun records =>
            .done (records.foldl SessionCollector.collect c)
  | [], _ => rfl
  | (container, kind) :: l, c => by
    rw [collectCandidates, List.filter_cons]
    split_ifs with h
    · rw [inspectAll, Prog.bind_assoc, Prog.bind_eq]
      congr 1
      funext inspect
      rw [collectCandidates_eq inspectContainer probe l, scope_collect, Prog.bind_assoc]
      rfl
    · rw [collectCandidates_eq inspectContainer probe l]

/-- Discovery is the inspection of its candidates, and a function of their records. -/
theorem discoverSessionsFromPs_eq (containers : List PodmanPsContainer)
    (scope : SessionDiscoveryScope) (containerScope : ContainerDiscoveryScope)
    (inspectContainer : String → Prog S Error PodmanContainerInspect) (probe : GitRootProbe) :
    discoverSessionsFromPs containers scope containerScope inspectContainer probe =
      (inspectAll inspectContainer probe (candidates containers scope containerScope)).bind
        fun records => Prog.ofExcept (collected scope records) := by
  rw [discoverSessionsFromPs, collectCandidates_eq, Prog.bind_eq, Prog.bind_assoc]
  rfl

/-! ### Marking duplicates -/

/-- How many of the sessions count for a root. -/
def claimants (sessions : List SessionRecord) (root : List Component) : Nat :=
  (sessions.filter fun session => countedRoot session = some root).length

def isDuplicate (sessions : List SessionRecord) (session : SessionRecord) : Bool :=
  (countedRoot session).any fun root => 1 < claimants sessions root

theorem markDuplicateSessions_eq (sessions : List SessionRecord) :
    markDuplicateSessions sessions = sessions.map fun session =>
      if isDuplicate sessions session then session.markDuplicate else session := by
  unfold markDuplicateSessions isDuplicate claimants
  simp only [getD_counts]

theorem countedRoot_eq_some {session : SessionRecord} {root : List Component} :
    countedRoot session = some root ↔ session.status.isFailed = false ∧
      ∃ path, session.canonicalGitRoot = some path ∧ path.components = root := by
  unfold countedRoot
  split_ifs with h
  · simp [h]
  · simp [h, Option.map_eq_some_iff]

/-- Marking in a part of the sessions is marking in all of them, where the part has all sessions
that count for a root of the part. -/
theorem markDuplicateSessions_filter {sessions : List SessionRecord} {p : SessionRecord → Bool}
    (hp : ∀ s, p s.markDuplicate = p s)
    (hroot : ∀ s ∈ sessions, p s = true → ∀ root, countedRoot s = some root →
      ∀ s' ∈ sessions, countedRoot s' = some root → p s' = true) :
    markDuplicateSessions (sessions.filter p) = (markDuplicateSessions sessions).filter p := by
  have hdup : ∀ s ∈ sessions.filter p,
      isDuplicate (sessions.filter p) s = isDuplicate sessions s := by
    intro s hs
    obtain ⟨hmem, hps⟩ := List.mem_filter.1 hs
    unfold isDuplicate claimants
    cases hc : countedRoot s with
    | none => rfl
    | some root =>
      have hsame : sessions.filter (fun s' => countedRoot s' = some root) =
          (sessions.filter p).filter fun s' => countedRoot s' = some root := by
        rw [List.filter_filter]
        refine List.filter_congr fun s' hs' => ?_
        by_cases h : countedRoot s' = some root
        · simp [h, hroot s hmem hps root hc s' hs' h]
        · simp [h]
      rw [Option.any_some, Option.any_some, hsame]
  rw [markDuplicateSessions_eq, markDuplicateSessions_eq, List.filter_map,
    List.map_congr_left fun s hs => by rw [hdup s hs]]
  congr 1
  refine List.filter_congr fun s _ => ?_
  rw [Function.comp_apply]
  split_ifs
  · exact (hp s).symm
  · rfl

/-! ### The collector -/

/-- The record belongs to the root, as `classify_session` has it. -/
def belongs (gitRoot : Utf8Path) (record : SessionRecord) : Bool :=
  record.canonicalGitRoot == some gitRoot ||
    (record.canonicalGitRoot.isNone && record.gitRootHash == some (gitRootHash12 gitRoot))

/-- The record has the hash of the root and another root. -/
def collides (gitRoot : Utf8Path) (record : SessionRecord) : Bool :=
  record.gitRootHash == some (gitRootHash12 gitRoot) &&
    record.canonicalGitRoot.any fun root => !(root == gitRoot)

theorem some_beq_some (p q : Utf8Path) : (some p == some q) = (p == q) := rfl

theorem foldl_collect_all : ∀ (records : List SessionRecord) (c : SessionCollector),
    c.scope = .all → records.foldl SessionCollector.collect c =
      { c with sessions := c.sessions ++ records }
  | [], c, _ => by rw [List.append_nil]; rfl
  | r :: records, c, h => by
    have hc : c.collect r = { c with sessions := c.sessions ++ [r] } := by
      unfold SessionCollector.collect
      rw [h]
    rw [List.foldl_cons, foldl_collect_all records _ (by rw [scope_collect, h]), hc]
    simp only [List.append_assoc, List.singleton_append]

theorem collected_all (records : List SessionRecord) :
    collected .all records = .ok (markDuplicateSessions records) := by
  rw [collected, foldl_collect_all records _ rfl]
  rfl

/-- What one record adds to a collector of one root. -/
theorem collect_gitRoot {gitRoot : Utf8Path} {c : SessionCollector}
    (hc : c.scope = .forGitRoot gitRoot) (r : SessionRecord) :
    c.collect r = { c with
      sessions := c.sessions ++ [r].filter (belongs gitRoot)
      mismatchedRoots := c.mismatchedRoots ++ ([r].filter (collides gitRoot)).filterMap fun r =>
        r.canonicalGitRoot.map Utf8Path.asStr } := by
  obtain ⟨scope, sessions, mismatchedRoots⟩ := c
  cases hc
  simp only [SessionCollector.collect, GitRootDiscoveryScope.classifySession, List.filter_singleton,
    belongs, collides]
  cases hroot : r.canonicalGitRoot with
  | none =>
    have hne : ((none : Option Utf8Path) == some gitRoot) = false := rfl
    by_cases hhash : r.gitRootHash = some (gitRootHash12 gitRoot)
    · simp [hne, hhash]
    · simp [hne, hhash, beq_eq_false_iff_ne.2 hhash]
  | some root =>
    simp only [some_beq_some]
    by_cases heq : (root == gitRoot) = true
    · simp [heq]
    · by_cases hhash : r.gitRootHash = some (gitRootHash12 gitRoot)
      · simp [heq, hhash, hroot]
      · simp [heq, hhash, beq_eq_false_iff_ne.2 hhash]

theorem foldl_collect_gitRoot {gitRoot : Utf8Path} : ∀ (records : List SessionRecord)
    (c : SessionCollector), c.scope = .forGitRoot gitRoot →
      records.foldl SessionCollector.collect c = { c with
        sessions := c.sessions ++ records.filter (belongs gitRoot)
        mismatchedRoots := c.mismatchedRoots ++
          (records.filter (collides gitRoot)).filterMap fun r =>
            r.canonicalGitRoot.map Utf8Path.asStr }
  | [], c, _ => by simp
  | r :: records, c, hc => by
    rw [List.foldl_cons, foldl_collect_gitRoot records _ (by rw [scope_collect, hc]),
      collect_gitRoot hc]
    simp only [List.append_assoc, ← List.filter_append, ← List.filterMap_append,
      List.singleton_append]

theorem dedup_mergeSort_eq_nil {l : List String} :
    (l.mergeSort (· ≤ ·)).dedup = [] ↔ l = [] := by
  rw [List.dedup_eq_nil, ← List.length_eq_zero_iff, List.length_mergeSort, List.length_eq_zero_iff]

/-- The result for one root: a collision error, or the records of the root. -/
theorem collected_gitRoot (gitRoot : Utf8Path) (records : List SessionRecord) :
    ((records.any (collides gitRoot) = true) → ∃ roots, collected (.forGitRoot gitRoot) records =
      .error (GitRootDiscoveryScope.collisionError ⟨gitRoot, gitRootHash12 gitRoot⟩ roots)) ∧
    (records.any (collides gitRoot) = false → collected (.forGitRoot gitRoot) records =
      .ok (markDuplicateSessions (records.filter (belongs gitRoot)))) := by
  have hnil : (records.filter (collides gitRoot)).filterMap
      (fun r => r.canonicalGitRoot.map Utf8Path.asStr) = [] ↔
        records.any (collides gitRoot) = false := by
    simp only [List.filterMap_eq_nil_iff, List.any_eq_false, List.mem_filter, Option.map_eq_none_iff]
    refine ⟨fun h r hr hc => ?_, fun h r hr => absurd hr.2 (h r hr.1)⟩
    have hnone := h r ⟨hr, hc⟩
    rw [collides, hnone] at hc
    simp at hc
  rw [collected, foldl_collect_gitRoot records _ rfl]
  simp only [SessionCollector.finish, SessionDiscoveryScope.forGitRoot, List.nil_append, ne_eq,
    dedup_mergeSort_eq_nil, hnil]
  constructor
  · intro h
    rw [if_pos (by rw [h]; decide)]
    exact ⟨_, rfl⟩
  · intro h
    rw [if_neg (by rw [h]; decide)]

end Agentbox.Session.Collected
