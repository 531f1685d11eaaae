import Agentbox.Session.ConnectView

/-! # Duplicates, exactly

What the discovery of all containers does to the record of each one: it is marked as a duplicate if
it is not failed and another record that is not failed has its root, and else it is left as it is.
The number of such records is all that the marking of a record depends on, so neither the order of
the containers nor the failed and the foreign ones among them matter to it. -/

namespace Agentbox.Session.DuplicateMarking

open Agentbox.Base.Path Agentbox.Base.Errors Agentbox.Files.Snapshot Agentbox.Metadata.Labels
  Agentbox.Podman.Model Agentbox.Podman.State Agentbox.Session.Record Agentbox.Session.Inspected
  Agentbox.Session.Discovery Agentbox.Session.Status Agentbox.Session.Collected
  Agentbox.Session.ScopedDiscovery Agentbox.Session.ConnectView

/-- The record of a container of agentbox that can be inspected, with its derived status. -/
def freshRecord (inspect : InspectFn) (probe : GitRootProbe) (container : PodmanPsContainer) :
    Option SessionRecord := do
  let kind ← agentboxContainerKindFromLabels container.labels
  let i ← (inspect container.id).toOption
  return buildSessionRecord container i kind probe

def isOwned (container : PodmanPsContainer) : Bool :=
  (agentboxContainerKindFromLabels container.labels).isSome

/-- Both records count for one root. -/
def twins (r r' : SessionRecord) : Bool :=
  !r.status.isFailed && !r'.status.isFailed && r.canonicalGitRoot.isSome &&
    r.canonicalGitRoot == r'.canonicalGitRoot

/-- A record among others. -/
def marked (all : List SessionRecord) (r : SessionRecord) : SessionRecord :=
  if 2 ≤ all.countP (twins r) then r.markDuplicate else r

/-- The session takes part in the work of its root. -/
def isLive (r : SessionRecord) : Bool := r.status == .running || r.status == .orphaned

variable {inspect : InspectFn} {probe : GitRootProbe} {containers : List PodmanPsContainer}
  {r r' : SessionRecord}

theorem twins_iff : twins r r' = true ↔
    ∃ root, countedRoot r = some root ∧ countedRoot r' = some root := by
  unfold twins
  simp only [countedRoot_eq_some, Bool.and_eq_true, Bool.not_eq_true', Option.isSome_iff_exists]
  constructor
  · rintro ⟨⟨⟨hr, hr'⟩, path, hpath⟩, heq⟩
    rw [hpath] at heq
    rcases hpath' : r'.canonicalGitRoot with _ | path'
    · rw [hpath'] at heq
      cases heq
    · rw [hpath', some_beq_some, Utf8Path.beq_iff] at heq
      exact ⟨path.components, ⟨hr, path, hpath, rfl⟩, hr', path', rfl, heq.symm⟩
  · rintro ⟨root, ⟨hr, path, hpath, hroot⟩, hr', path', hpath', hroot'⟩
    refine ⟨⟨⟨hr, hr'⟩, path, hpath⟩, ?_⟩
    rw [hpath, hpath', some_beq_some, Utf8Path.beq_iff, hroot, hroot']

theorem countP_twins (all : List SessionRecord) (r : SessionRecord) :
    decide (2 ≤ all.countP (twins r)) = isDuplicate all r := by
  unfold isDuplicate claimants
  rcases hroot : countedRoot r with _ | root
  · have hzero : all.countP (twins r) = 0 := by
      refine List.countP_eq_zero.2 fun r' _ htwins => ?_
      obtain ⟨root, hr, -⟩ := twins_iff.1 htwins
      rw [hroot] at hr
      cases hr
    rw [hzero]
    rfl
  · have hcount : all.countP (twins r) = (all.filter fun s => countedRoot s = some root).length := by
      rw [← List.countP_eq_length_filter]
      refine List.countP_congr fun r' _ => ?_
      rw [twins_iff, decide_eq_true_eq, hroot]
      constructor
      · rintro ⟨_, ⟨⟩, h⟩
        exact h
      · intro h
        exact ⟨root, rfl, h⟩
    rw [hcount, Option.any_some, decide_eq_decide]
    omega

theorem markDuplicateSessions_eq_map (all : List SessionRecord) :
    markDuplicateSessions all = all.map (marked all) := by
  rw [markDuplicateSessions_eq]
  refine List.map_congr_left fun r _ => ?_
  unfold marked
  by_cases h : 2 ≤ all.countP (twins r)
  · rw [if_pos h, ← countP_twins, if_pos (decide_eq_true h)]
  · rw [if_neg h, ← countP_twins, if_neg (by simpa using h)]

/-! ### The records of the containers -/

theorem freshRecord_of_owned {container : PodmanPsContainer} {kind : AgentboxContainerKind}
    {i : PodmanContainerInspect} (hkind : agentboxContainerKindFromLabels container.labels = some kind)
    (hi : inspect container.id = .ok i) :
    freshRecord inspect probe container = some (buildSessionRecord container i kind probe) := by
  rw [freshRecord, hkind, hi]
  rfl

/-- The records of all containers that agentbox owns, when each of them can be inspected. -/
theorem recordsOf_owned : ∀ (containers : List PodmanPsContainer) (fresh : List SessionRecord),
    recordsOf inspect probe (containers.filterMap (psCandidate .agentboxOwned)) = .ok fresh ↔
      (∀ container ∈ containers, isOwned container = true → ∃ i, inspect container.id = .ok i) ∧
        fresh = containers.filterMap (freshRecord inspect probe)
  | [], fresh => by
    rw [List.filterMap_nil, List.filterMap_nil, recordsOf, Except.ok.injEq]
    exact ⟨fun h => ⟨fun _ hc => absurd hc List.not_mem_nil, h.symm⟩, fun h => h.2.symm⟩
  | container :: containers, fresh => by
    rcases hkind : agentboxContainerKindFromLabels container.labels with _ | kind
    · have hcand : psCandidate .agentboxOwned container = none := by rw [psCandidate, hkind]
      have hfresh : freshRecord inspect probe container = none := by rw [freshRecord, hkind]; rfl
      have hnot : isOwned container = false := by rw [isOwned, hkind]; rfl
      rw [List.filterMap_cons_none hcand, List.filterMap_cons_none hfresh,
        recordsOf_owned containers fresh, List.forall_mem_cons, hnot]
      simp
    · have hcand : psCandidate .agentboxOwned container = some (container, kind) := by
        rw [psCandidate, hkind]
        rfl
      have howned : isOwned container = true := by rw [isOwned, hkind]; rfl
      rw [List.filterMap_cons_some hcand, recordsOf, List.forall_mem_cons, howned]
      rcases hi : inspect container.id with e | i
      · simp
      · rw [List.filterMap_cons_some (freshRecord_of_owned hkind hi)]
        rcases hrest : recordsOf inspect probe
            (containers.filterMap (psCandidate .agentboxOwned)) with e | rest
        · have hno := mt (fun h => (recordsOf_owned containers _).2 ⟨h, rfl⟩) (by rw [hrest]; simp)
          simp [hno]
        · obtain ⟨hok, rfl⟩ := (recordsOf_owned containers rest).1 hrest
          rw [Except.ok.injEq]
          exact ⟨fun h => ⟨⟨fun _ => ⟨i, rfl⟩, hok⟩, h.symm⟩, fun h => h.2.symm⟩

/-- The discovery of all containers marks their records. -/
theorem discovered_all_iff {sessions : List SessionRecord} :
    discovered containers .all .agentboxOwned inspect probe = .ok sessions ↔
      (∀ container ∈ containers, isOwned container = true → ∃ i, inspect container.id = .ok i) ∧
        sessions = (containers.filterMap (freshRecord inspect probe)).map
          (marked (containers.filterMap (freshRecord inspect probe))) := by
  have hbase : candidates containers .all .agentboxOwned =
      containers.filterMap (psCandidate .agentboxOwned) := List.filter_eq_self.2 fun _ _ => rfl
  rw [discovered_eq, hbase]
  constructor
  · intro h
    obtain ⟨fresh, hfresh, hsessions⟩ := bind_eq_ok.1 h
    obtain ⟨hok, rfl⟩ := (recordsOf_owned containers fresh).1 hfresh
    rw [collected_all, markDuplicateSessions_eq_map] at hsessions
    exact ⟨hok, (Except.ok.inj hsessions).symm⟩
  · rintro ⟨hok, rfl⟩
    refine bind_eq_ok.2 ⟨_, (recordsOf_owned containers _).2 ⟨hok, rfl⟩, ?_⟩
    rw [collected_all, markDuplicateSessions_eq_map]

/-! ### What marking does -/

theorem countP_twins_of_isFailed (all : List SessionRecord) (h : r.status.isFailed = true) :
    all.countP (twins r) = 0 := by
  refine List.countP_eq_zero.2 fun r' _ htwins => ?_
  unfold twins at htwins
  simp [h] at htwins

/-- Whatever is no twin of the record does not matter. -/
theorem marked_congr {all all' : List SessionRecord}
    (h : all'.countP (twins r) = all.countP (twins r)) : marked all' r = marked all r := by
  unfold marked
  rw [h]

theorem isLive_marked {all : List SessionRecord} (h : isLive (marked all r) = true) :
    marked all r = r ∧ all.countP (twins r) ≤ 1 ∧ isLive r = true := by
  unfold marked at h ⊢
  by_cases htwins : 2 ≤ all.countP (twins r)
  · rw [if_pos htwins] at h
    cases h
  · rw [if_neg htwins] at h ⊢
    exact ⟨rfl, by omega, h⟩

theorem countedRoot_of_isLive {root : Utf8Path} (h : isLive r = true)
    (hroot : (r.canonicalGitRoot == some root) = true) : countedRoot r = some root.components := by
  refine countedRoot_eq_some.2 ⟨?_, ?_⟩
  · unfold isLive at h
    rcases hs : r.status with _ | _ | _ | failure <;> simp [hs, SessionStatus.isFailed] at h ⊢
  · rcases hr : r.canonicalGitRoot with _ | path
    · rw [hr] at hroot
      cases hroot
    · rw [hr, some_beq_some, Utf8Path.beq_iff] at hroot
      exact ⟨path, rfl, hroot⟩

/-- No root has two live records after the marking. -/
theorem countP_isLive_le_one (all : List SessionRecord) (root : Utf8Path) :
    (all.map (marked all)).countP (fun s => isLive s && s.canonicalGitRoot == some root) ≤ 1 := by
  rw [List.countP_map]
  have hlive : ∀ r, ((fun s => isLive s && s.canonicalGitRoot == some root) ∘ marked all) r =
      true → countedRoot r = some root.components ∧ all.countP (twins r) ≤ 1 := by
    intro r h
    rw [Function.comp_apply, Bool.and_eq_true] at h
    obtain ⟨hself, hone, hr⟩ := isLive_marked h.1
    rw [hself] at h
    exact ⟨countedRoot_of_isLive hr h.2, hone⟩
  by_cases hsome : ∃ r ∈ all, ((fun s => isLive s && s.canonicalGitRoot == some root) ∘
      marked all) r = true
  · obtain ⟨r, -, hr⟩ := hsome
    refine le_trans (List.countP_mono_left fun r' _ hr' => ?_) (hlive r hr).2
    exact twins_iff.2 ⟨_, (hlive r hr).1, (hlive r' hr').1⟩
  · have hzero : all.countP ((fun s => isLive s && s.canonicalGitRoot == some root) ∘ marked all) =
        0 := by
      exact List.countP_eq_zero.2 fun r hr h => hsome ⟨r, hr, h⟩
    omega

/-- A fresh record is no duplicate. -/
theorem status_ne_duplicate {container : PodmanPsContainer}
    (h : freshRecord inspect probe container = some r) : r.status ≠ .duplicate := by
  unfold freshRecord at h
  simp only [Option.bind_eq_bind, Option.bind_eq_some_iff] at h
  obtain ⟨kind, -, i, -, hr⟩ := h
  cases hr
  obtain ⟨failure, hstatus, -⟩ | ⟨root, -, hstatus⟩ := status_cases container i kind probe
  · rw [hstatus]
    exact nofun
  · rw [hstatus]
    split_ifs
    · exact nofun
    · exact nofun

theorem marked_status (all : List SessionRecord) (h : r.status ≠ .duplicate) :
    (r.status.isFailed = true → marked all r = r) ∧
    ((marked all r).status = .duplicate ↔
      r.status.isFailed = false ∧ 2 ≤ all.countP (twins r)) ∧
    ((marked all r).status ≠ .duplicate → marked all r = r) ∧
    ((marked all r).status = .duplicate → marked all r = r.markDuplicate) := by
  unfold marked
  by_cases htwins : 2 ≤ all.countP (twins r)
  · have hok : r.status.isFailed = false := by
      by_contra hfailed
      have hzero := countP_twins_of_isFailed all (Bool.not_eq_false _ ▸ hfailed)
      omega
    rw [if_pos htwins]
    exact ⟨fun hfailed => absurd hfailed (by rw [hok]; decide), ⟨fun _ => ⟨hok, htwins⟩,
      fun _ => rfl⟩, fun hne => absurd rfl hne, fun _ => rfl⟩
  · rw [if_neg htwins]
    exact ⟨fun _ => rfl, ⟨fun hdup => absurd hdup h, fun hboth => absurd hboth.2 htwins⟩,
      fun _ => rfl, fun hdup => absurd hdup h⟩

/-! ### Containers -/

/-- What a container among others is shown as. -/
def sessionAmong (inspect : InspectFn) (probe : GitRootProbe) (containers : List PodmanPsContainer)
    (container : PodmanPsContainer) : Option SessionRecord :=
  (freshRecord inspect probe container).map
    (marked (containers.filterMap (freshRecord inspect probe)))

/-- The record of one container is failed, or has another root than that of the other. -/
def FailedOrForeign (inspect : InspectFn) (probe : GitRootProbe)
    (container other : PodmanPsContainer) : Prop :=
  ∀ r r', freshRecord inspect probe container = some r → freshRecord inspect probe other = some r' →
    r.status.isFailed = true ∨ (r.canonicalGitRoot == r'.canonicalGitRoot) = false

theorem sessionAmong_perm {containers' : List PodmanPsContainer} (h : containers'.Perm containers) :
    sessionAmong inspect probe containers' = sessionAmong inspect probe containers := by
  funext container
  unfold sessionAmong
  congr 1
  funext r
  exact marked_congr ((h.filterMap _).countP_eq _)

theorem sessionAmong_remove {l l' : List PodmanPsContainer} {container other : PodmanPsContainer}
    (h : FailedOrForeign inspect probe container other) :
    sessionAmong inspect probe (l ++ l') other =
      sessionAmong inspect probe (l ++ container :: l') other := by
  unfold sessionAmong
  rcases hother : freshRecord inspect probe other with _ | r'
  · rfl
  refine congrArg some (marked_congr ?_)
  rw [List.filterMap_append, List.filterMap_append, List.countP_append, List.countP_append]
  rcases hcontainer : freshRecord inspect probe container with _ | r
  · rw [List.filterMap_cons_none hcontainer]
  · have hno : twins r' r = false := by
      unfold twins
      rcases h r r' hcontainer hother with hfailed | hforeign
      · simp [hfailed]
      · rcases hr : r.canonicalGitRoot with _ | p <;> rcases hr' : r'.canonicalGitRoot with _ | p'
        · simp
        · simp
        · simp
        · rw [hr, hr', some_beq_some] at hforeign
          rw [some_beq_some]
          have hsymm : (p' == p) = (p == p') := by
            rw [Bool.eq_iff_iff, Utf8Path.beq_iff, Utf8Path.beq_iff, eq_comm]
          simp [hsymm, hforeign]
    rw [List.filterMap_cons_some hcontainer, List.countP_cons_of_neg (by rw [hno]; decide)]

theorem discovered_all {containers : List PodmanPsContainer} (h : ∀ container ∈ containers,
    isOwned container = true → ∃ i, inspect container.id = .ok i) :
    discovered containers .all .agentboxOwned inspect probe =
      .ok (containers.filterMap (sessionAmong inspect probe containers)) := by
  rw [discovered_all_iff.2 ⟨h, rfl⟩, List.map_filterMap]
  rfl

/-- **Duplicates are marked exactly.** -/
theorem duplicateMarking (containers : List PodmanPsContainer) (inspect : InspectFn)
    (probe : GitRootProbe) (hinspect : ∀ container ∈ containers, isOwned container = true →
      ∃ i, inspect container.id = .ok i) :
    ∃ fresh sessions, discovered containers .all .agentboxOwned inspect probe = .ok sessions ∧
      -- one record for each container, in their order
      fresh = containers.filterMap (freshRecord inspect probe) ∧
      fresh.length = (containers.filter isOwned).length ∧ sessions.length = fresh.length ∧
      -- the status of each record
      (∀ (i : Nat) (r s : SessionRecord), fresh[i]? = some r → sessions[i]? = some s →
        (r.status.isFailed = true → s = r) ∧
        (s.status = .duplicate ↔ r.status.isFailed = false ∧ 2 ≤ fresh.countP (twins r)) ∧
        (s.status ≠ .duplicate → s = r) ∧ (s.status = .duplicate → s = r.markDuplicate)) ∧
      -- one live record for each root
      (∀ root, sessions.countP (fun s => isLive s && s.canonicalGitRoot == some root) ≤ 1) ∧
      -- the order of the containers
      (∀ containers', containers'.Perm containers →
        sessions = containers.filterMap (sessionAmong inspect probe containers) ∧
        discovered containers' .all .agentboxOwned inspect probe =
          .ok (containers'.filterMap (sessionAmong inspect probe containers))) ∧
      -- the removal of a container
      (∀ l container l', containers = l ++ container :: l' → ∃ sessions',
        discovered (l ++ l') .all .agentboxOwned inspect probe = .ok sessions' ∧
        sessions' = (l ++ l').filterMap (sessionAmong inspect probe (l ++ l')) ∧
        ∀ other ∈ l ++ l', FailedOrForeign inspect probe container other →
          sessionAmong inspect probe (l ++ l') other =
            sessionAmong inspect probe containers other) := by
  refine ⟨_, _, (discovered_all_iff.2 ⟨hinspect, rfl⟩), rfl, ?_, List.length_map _, ?_,
    countP_isLive_le_one _, ?_, ?_⟩
  · rw [List.length_filterMap_eq_countP, ← List.countP_eq_length_filter]
    refine List.countP_congr fun container hc => ?_
    unfold freshRecord isOwned
    rcases hkind : agentboxContainerKindFromLabels container.labels with _ | kind
    · simp
    · obtain ⟨i, hi⟩ := hinspect container hc (by rw [isOwned, hkind]; rfl)
      rw [hi]
      simp [Except.toOption]
  · intro i r s hr hs
    rw [List.getElem?_map, hr] at hs
    cases hs
    obtain ⟨container, -, hcontainer⟩ := List.mem_filterMap.1 (List.mem_of_getElem? hr)
    exact marked_status _ (status_ne_duplicate hcontainer)
  · intro containers' hperm
    refine ⟨List.map_filterMap .., ?_⟩
    rw [discovered_all fun container hc => hinspect container (hperm.mem_iff.1 hc),
      sessionAmong_perm hperm]
  · rintro l container l' rfl
    have hsub : ∀ other ∈ l ++ l', other ∈ l ++ container :: l' := by
      intro other hother
      rw [List.mem_append, List.mem_cons]
      exact (List.mem_append.1 hother).imp_right .inr
    exact ⟨_, discovered_all fun other ho => hinspect other (hsub other ho), rfl,
      fun other _ h => sessionAmong_remove h⟩

/-- The managed session and the transient run of one root are two sessions that are shown. -/
theorem duplicateMarking_demo : ∃ sessions, discovered (demoState.listing false) .all .agentboxOwned
    demoState.inspectOne demoProbe = .ok sessions ∧ sessions.length = 2 := by
  obtain ⟨fresh, sessions, hok, -, hfresh, hlength, -⟩ := duplicateMarking
    (demoState.listing false) demoState.inspectOne demoProbe (by
      intro container hcontainer _
      obtain ⟨c, hc, rfl⟩ := List.mem_map.1 hcontainer
      exact ⟨_, PodmanState.inspectOne_of_mem (List.mem_filter.1 hc).1⟩)
  have howned : ((demoState.listing false).filter isOwned).length = 2 := by decide +kernel
  exact ⟨sessions, hok, by rw [hlength, hfresh, howned]⟩

end Agentbox.Session.DuplicateMarking
