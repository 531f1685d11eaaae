import Agentbox.Commands.StopAll
import Agentbox.Session.RootContainers

/-! # What stop leaves behind

Under the lock of a root, the containers of the root are looked for by its hash. A container of the
root whose hash label says something else is not found: `stop --all` and `stop --force` succeed and
leave it alone. -/

namespace Agentbox.Commands.StopCompleteness

open Agentbox.Base.Path Agentbox.Base.Errors Agentbox.Files.Snapshot Agentbox.Lib.Program
  Agentbox.Metadata.Labels Agentbox.Podman.Model Agentbox.Podman.State
  Agentbox.Workspace.Identity Agentbox.Session.Record Agentbox.Session.Discovery
  Agentbox.Session.Collected Agentbox.Session.ScopedDiscovery Agentbox.Session.Views
  Agentbox.Session.Claimants Agentbox.Session.RootContainers Agentbox.Session.Selection Agentbox.Session.Target
  Agentbox.Commands.HostCalls Agentbox.Commands.WorkspaceFlow Agentbox.Commands.ContainerCleanup
  Agentbox.Commands.Stop Agentbox.Commands.Quiet Agentbox.Commands.World
  Agentbox.Commands.Obliging Agentbox.Commands.RoundTrip Agentbox.Commands.StopAll
open Agentbox.Session.ConnectView (demoContainer)

/-! ### Podman while containers are stopped -/

/-- Containers go away, or stop running, when they are stopped by a name. None is added. -/
structure Reduces (s : PodmanState) (names : List String) (s' : PodmanState) : Prop where
  only : ∀ c ∈ s.containers, (∀ name ∈ names, name ∉ c.refs) → c ∈ s'.containers
  old : ∀ c' ∈ s'.containers, ∃ c ∈ s.containers, c' = c ∨ c' = PodmanContainer.stopped c

theorem reduces_refl (s : PodmanState) : Reduces s [] s :=
  ⟨fun _ hc _ => hc, fun c hc => ⟨c, hc, .inl rfl⟩⟩

theorem Reduces.trans {s s' s'' : PodmanState} {names names' : List String}
    (h : Reduces s names s') (h' : Reduces s' names' s'') : Reduces s (names ++ names') s'' where
  only c hc hnames := by
    have hfirst := h.only c hc fun name hname => hnames name (List.mem_append_left _ hname)
    exact h'.only c hfirst fun name hname => hnames name (List.mem_append_right _ hname)
  old c' hc' := by
    obtain ⟨c1, hc1, h1⟩ := h'.old c' hc'
    obtain ⟨c, hc, h0⟩ := h.old c1 hc1
    refine ⟨c, hc, ?_⟩
    rcases h1 with rfl | rfl
    · exact h0
    · rcases h0 with rfl | rfl
      · exact .inr rfl
      · exact .inr rfl

theorem Reduces.refs {s s' : PodmanState} {names : List String} (h : Reduces s names s')
    {name : String} (hname : ∀ c ∈ s.containers, name ∉ c.refs) :
    ∀ c ∈ s'.containers, name ∉ c.refs := by
  intro c' hc'
  obtain ⟨c, hc, rfl | rfl⟩ := h.old c' hc'
  · exact hname c' hc
  · exact hname c hc

def isRun : HostOp → Bool
  | .runDetached _ _ => true
  | _ => false

theorem reduces_serves {w w' : WorldState} {o : HostOp} {r : o.Ret} (h : serves w o r w')
    (ho : isRun o = false) :
    Reduces w.podman (stoppedName ⟨o, r⟩).toList w'.podman ∧ w'.host = w.host := by
  by_cases hkeeps : keepsContainers o = true
  · obtain ⟨hpodman, hhost, -⟩ := serves_keepsContainers hkeeps h
    have hnone : stoppedName ⟨o, r⟩ = none := by
      cases o <;> first | rfl | cases hkeeps
    rw [hnone, hpodman]
    exact ⟨reduces_refl _, hhost⟩
  · cases o with
    | stopIgnore name =>
      obtain ⟨s, hstops, rfl⟩ := h
      refine ⟨⟨fun c hc hname => hstops.only c hc (hname name (List.mem_singleton_self _)), ?_⟩, rfl⟩
      intro c hc
      obtain hold | ⟨c0, hc0, -, rfl⟩ := hstops.old c hc
      · exact ⟨c, hold, .inl rfl⟩
      · exact ⟨c0, hc0, .inr rfl⟩
    | runDetached name spec => cases ho
    | lockGuard digest64 =>
      obtain ⟨-, rfl⟩ | ⟨-, rfl⟩ := h
      · exact ⟨reduces_refl _, rfl⟩
      · exact ⟨reduces_refl _, rfl⟩
    | unlock digest64 =>
      cases h
      exact ⟨reduces_refl _, rfl⟩
    | _ => exact absurd rfl hkeeps

section
variable {α : Type} {p : Command α} {w w' : WorldState} {t : List (Event HostOps WorldState)}
  {res : Except Error α}

theorem reduces_of_exec (h : Exec (worldMachine Eq) p w t w' res)
    (hno : ∀ e ∈ t, isRun e.op = false) :
    Reduces w.podman ((log t).filterMap stoppedName) w'.podman ∧ w'.host = w.host := by
  induction h with
  | done => exact ⟨reduces_refl _, rfl⟩
  | fail => exact ⟨reduces_refl _, rfl⟩
  | @call o k x x1 x' r t res hs _ ih =>
    obtain ⟨_, hserves, rfl⟩ := hs
    obtain ⟨hfirst, hhost⟩ := reduces_serves hserves (hno _ List.mem_cons_self)
    obtain ⟨hrest, hhost'⟩ := ih fun e he => hno e (List.mem_cons_of_mem _ he)
    refine ⟨?_, hhost'.trans hhost⟩
    have htrans := hfirst.trans hrest
    rcases hstop : stoppedName ⟨o, r⟩ with _ | name
    · rw [hstop] at htrans
      rwa [log_cons, List.filterMap_cons_none hstop]
    · rw [hstop] at htrans
      rwa [log_cons, List.filterMap_cons_some hstop]

/-- A name that was looked for and not found stays away. -/
theorem absent_of_exec (h : Exec (worldMachine Eq) p w t w' res)
    (hno : ∀ e ∈ t, isRun e.op = false) {name : String}
    (hgone : ⟨.containerExists name, .ok false⟩ ∈ log t) :
    ∀ c ∈ w'.podman.containers, name ∉ c.refs := by
  induction h with
  | done => cases hgone
  | fail => cases hgone
  | @call o k x x1 x' r t res hs hexec ih =>
    have hnorest : ∀ e ∈ t, isRun e.op = false := fun e he => hno e (List.mem_cons_of_mem _ he)
    rw [log_cons] at hgone
    obtain heq | hrest := List.mem_cons.1 hgone
    · cases heq
      obtain ⟨y, ⟨htells, hy⟩, hx⟩ := hs
      have hfind : x1.podman.find name = none := by
        rw [← hx, hy, ← Option.not_isSome_iff_eq_none, ← htells false rfl]
        decide
      exact (reduces_of_exec hexec hnorest).1.refs (PodmanState.find_eq_none.1 hfind)
    · exact ih hnorest hrest

end

variable {c : PodmanContainer} {session : SessionRecord} {s : PodmanState} {probe : GitRootProbe}

/-! ### The rounds of `stop --all` -/

/-- What a round finds for its group in what the earlier stops have left. -/
structure FindsGroup (w : WorldState) (stopped : List String) (group : SessionGroup)
    (round : Round) : Prop where
  found : ∃ s names discovered, Reduces w.podman names s ∧ names ⊆ stopped ∧
    view w.host.gitRootProbe s (.forGitRoot group.canonicalGitRoot) .agentboxOwned =
      .ok discovered ∧ round.found = runningMatches group.canonicalGitRoot discovered

theorem not_isRun_of_isReading : ∀ {o : HostOp}, isReading o = true → isRun o = false
  | o, h => by cases o <;> first | rfl | cases h

theorem only_cleanupManagedContainer (session : SessionRecord) :
    Only (S := HostOps) (fun o => isRun o = false) (cleanupManagedContainer session) := by
  have hstop : Only (S := HostOps) (fun o => isRun o = false)
      (ManagedContainerCleanup.stopAndVerify session.containerName) :=
    .bind (Only.attempt ⟨rfl, only_ofExcept⟩) fun _ => .bind (Only.attempt ⟨rfl, only_ofExcept⟩)
      fun _ => only_done _
  refine .bind hstop fun cleanup => ?_
  split
  · exact only_done _
  · refine .bind (Only.attempt ?_) fun _ => only_done _
    unfold CodexAttachAuth.removeCodexAttachTokenForSession
    split_ifs
    · split
      · exact ⟨rfl, only_ofExcept⟩
      · exact only_done _
    · exact only_done _

theorem only_cleanupManagedContainers : ∀ sessions : List SessionRecord,
    Only (S := HostOps) (fun o => isRun o = false) (cleanupManagedContainers sessions)
  | [] => only_done _
  | session :: sessions => .bind (only_cleanupManagedContainer session) fun _ =>
    .bind (only_cleanupManagedContainers sessions) fun _ => only_done _

theorem reduces_cleanup {w w' : WorldState} {t : List (Event HostOps WorldState)}
    {sessions : List SessionRecord} {res : Except Error (List ContainerCleanupFailure)}
    (h : Exec (worldMachine Eq) (cleanupManagedContainers sessions) w t w' res) :
    Reduces w.podman ((log t).filterMap stoppedName) w'.podman ∧ w'.host = w.host :=
  reduces_of_exec h (h.of_always (only_cleanupManagedContainers sessions)).2

theorem lock_podman {w w' : WorldState} {digest64 : String} {r : Except Error Unit}
    (h : (worldMachine Eq).step w (.lockGuard digest64) r w') :
    w'.podman = w.podman ∧ w'.host = w.host := by
  obtain ⟨w1, ⟨-, rfl⟩ | ⟨-, rfl⟩, rfl⟩ := h
  · exact ⟨rfl, rfl⟩
  · exact ⟨rfl, rfl⟩

theorem unlock_podman {w w' : WorldState} {digest64 : String}
    (h : (worldMachine Eq).step w (.unlock digest64) () w') :
    w'.podman = w.podman ∧ w'.host = w.host := by
  obtain ⟨w1, rfl, rfl⟩ := h
  exact ⟨rfl, rfl⟩

section
variable {w w' : WorldState} {t : List (Event HostOps WorldState)} {groups : List SessionGroup}
  {rounds : List Round}

/-- Every round looks at what the rounds before it have left. -/
theorem rounds_find (h : Rounds (worldMachine Eq) groups w t w' rounds)
    (hend : endedEarly rounds = false) :
    List.Forall₂ (FindsGroup w ((log t).filterMap stoppedName)) groups rounds := by
  induction h with
  | nil => exact .nil
  | lockFailed => cases hend
  | discoveryFailed => cases hend
  | @cleaned group groups x x1 x2 x3 x4 x5 t1 t2 t3 discovered failures rounds hlock hdiscover
      hclean hunlock hrest ih =>
    obtain ⟨hpodman, hhost⟩ := lock_podman hlock
    obtain ⟨rfl, hview⟩ := exec_discover hdiscover
    obtain ⟨hreduces, hhost'⟩ := reduces_cleanup hclean
    obtain ⟨hpodman', hhost''⟩ := unlock_podman hunlock
    have hsilent := (silent_of_only hdiscover (only_discover _ _)).stops
    have hnames : (log (⟨x, .lockGuard (groupDigest group), .ok (), x2⟩ ::
        (t1 ++ t2 ++ [⟨x3, .unlock (groupDigest group), (), x4⟩]) ++ t3)).filterMap stoppedName =
          (log t2).filterMap stoppedName ++ (log t3).filterMap stoppedName := by
      simp only [List.cons_append, log_cons, log_append, log_nil, List.filterMap_cons,
        List.filterMap_append, stoppedName, hsilent, List.nil_append, List.filterMap_nil,
        List.append_nil]
    rw [hnames]
    refine .cons ⟨x.podman, [], discovered, reduces_refl _, List.nil_subset _, ?_, rfl⟩ ?_
    · rw [← hpodman, ← hhost]
      exact hview
    · refine (ih hend).imp fun group' round' hfinds => ?_
      obtain ⟨s, names, discovered', hs, hsub, hview', hfound⟩ := hfinds.found
      refine ⟨s, (log t2).filterMap stoppedName ++ names, discovered', ?_, ?_, ?_, hfound⟩
      · rw [hpodman'] at hs
        rw [← hpodman]
        exact hreduces.trans hs
      · exact List.append_subset.2 ⟨List.subset_append_left _ _,
          List.Subset.trans hsub (List.subset_append_right _ _)⟩
      · rw [hhost'', hhost', hhost] at hview'
        exact hview'

end

/-! ### Groups -/

/-- The running containers that agentbox owns. -/
def isRunningOwned (c : PodmanContainer) : Bool := c.running && c.kind.isSome

/-- The root of a group, as the first of its running containers spells it. -/
def spelledRoot (s : PodmanState) (root : Utf8Path) : Option Utf8Path :=
  ((s.containers.filter isRunningOwned).filterMap rootOf).find? (· == root)

/-- A container with a root is found again by the root of its group. -/
def KeepsGroup (s : PodmanState) (c : PodmanContainer) : Prop :=
  ∀ root, rootOf c = some root → ∀ spelled, spelledRoot s root = some spelled →
    hashAgrees spelled c = true

theorem roots_shown (probe : GitRootProbe) (s : PodmanState) :
    (runningSessions (shown probe s)).filterMap SessionRecord.canonicalGitRoot =
      (s.containers.filter isRunningOwned).filterMap rootOf := by
  have hmark : ∀ l : List SessionRecord,
      (runningSessions (markDuplicateSessions l)).filterMap SessionRecord.canonicalGitRoot =
        (runningSessions l).filterMap SessionRecord.canonicalGitRoot := by
    intro l
    rw [markDuplicateSessions_eq, runningSessions, runningSessions, List.filterMap_filter,
      List.filterMap_filter, List.filterMap_map]
    refine List.filterMap_congr fun r _ => ?_
    rw [Function.comp_apply]
    by_cases hdup : isDuplicate l r = true
    · rw [if_pos hdup]
      rfl
    · rw [if_neg hdup]
  rw [shown, hmark, records_all, runningSessions, List.filterMap_filter, List.filterMap_filterMap,
    List.filterMap_filter]
  refine List.filterMap_congr fun c _ => ?_
  rcases hkind : c.kind with _ | kind
  · simp [isRunningOwned, hkind]
  · simp only [Option.map_some, Option.bind_some, isRunningOwned, hkind, Option.isSome_some,
      Bool.and_true]
    rfl

/-- A group has the spelling of its first container. -/
theorem spelledRoot_group {group : SessionGroup} {root : Utf8Path}
    (h : group ∈ (partitionSessionsByGitRoot (runningSessions (shown probe s))).rooted)
    (hroot : group.canonicalGitRoot.components = root.components) :
    spelledRoot s root = some group.canonicalGitRoot := by
  obtain ⟨root', first, rest, hfirst, hfilter, rfl⟩ := mem_rooted.1 h
  have hfind : (runningSessions (shown probe s)).find? (fun session =>
      rootComponents session = some root.components) = some first := by
    rw [← List.head?_filter, ← hroot]
    change (List.filter (fun session => decide (rootComponents session = some root'.components))
      _).head? = _
    rw [hfilter]
    rfl
  rw [spelledRoot, ← roots_shown probe, List.find?_filterMap]
  have hsame : (fun session : SessionRecord =>
      session.canonicalGitRoot.any (· == root)) = fun session =>
        decide (rootComponents session = some root.components) := by
    funext session
    rw [rootComponents, Bool.eq_iff_iff, decide_eq_true_iff]
    rcases session.canonicalGitRoot with _ | path
    · simp
    · rw [Option.any_some, Option.map_some, Option.some_inj, Utf8Path.beq_iff]
  rw [hsame, hfind]
  exact hfirst

/-- The container is found again under the lock of one of the roots. -/
def IsFound (roots : List Utf8Path) (c : PodmanContainer) : Prop :=
  isRunningOwned c = true ∧
    ∃ root ∈ roots, (rootOf c == some root) = true ∧ hashAgrees root c = true

/-- A container is found again, or needs no lock, exactly when it keeps its group. -/
theorem isFound_iff (probe : GitRootProbe) (hc : c ∈ s.containers)
    (hrun : isRunningOwned c = true) :
    IsFound ((partitionSessionsByGitRoot (runningSessions (shown probe s))).rooted.map
        SessionGroup.canonicalGitRoot) c ∨ rootOf c = none ↔ KeepsGroup s c := by
  obtain ⟨hrunning, hkind⟩ := Bool.and_eq_true_iff.1 hrun
  constructor
  · rintro (⟨-, path, hpath, hroot, hagrees⟩ | hnone) root hrootOf spelled hspelled
    · obtain ⟨group, hgroup, rfl⟩ := List.mem_map.1 hpath
      rw [hrootOf, some_beq_some, Utf8Path.beq_iff] at hroot
      rw [spelledRoot_group hgroup hroot.symm] at hspelled
      rw [← Option.some.inj hspelled]
      exact hagrees
    · rw [hrootOf] at hnone
      cases hnone
  · intro hkeeps
    rcases hroot : rootOf c with _ | root
    · exact .inr rfl
    obtain ⟨session, hshown, hof⟩ := @exists_shown probe c s hc hkind
    have hsession : session ∈ runningSessions (shown probe s) :=
      List.mem_filter.2 ⟨hshown, by rw [hof.containerRunning_eq, hrunning]⟩
    obtain ⟨group, hgroup, -, hcomponents⟩ :=
      exists_group hsession (hof.canonicalGitRoot_eq.trans hroot)
    refine .inl ⟨hrun, _, List.mem_map_of_mem hgroup, ?_,
      hkeeps root hroot _ (spelledRoot_group hgroup hcomponents)⟩
    rw [hroot, some_beq_some, Utf8Path.beq_iff, hcomponents]

theorem mem_unrooted (probe : GitRootProbe) (hc : c ∈ s.containers) :
    c.containerName ∈ (partitionSessionsByGitRoot (runningSessions (shown probe s))).unrooted.map
      SessionRecord.containerName ↔ isRunningOwned c = true ∧ rootOf c = none := by
  rw [List.mem_map]
  constructor
  · rintro ⟨session, hmem, hname⟩
    obtain ⟨hrunning, hnone⟩ := List.mem_filter.1 hmem
    obtain ⟨hshown, hrunning⟩ := List.mem_filter.1 hrunning
    obtain ⟨c1, hc1, hof⟩ := isSessionOf_of_mem_shown hshown
    obtain rfl := PodmanState.eq_of_mem_refs hc hc1 c.containerName_mem_refs
      (hname ▸ hof.containerName_eq ▸ c1.containerName_mem_refs)
    rw [hof.canonicalGitRoot_eq, Option.isNone_iff_eq_none] at hnone
    rw [hof.containerRunning_eq] at hrunning
    exact ⟨by rw [isRunningOwned, hrunning, hof.isSome_kind]; rfl, hnone⟩
  · rintro ⟨hrun, hnone⟩
    obtain ⟨hrunning, hkind⟩ := Bool.and_eq_true_iff.1 hrun
    obtain ⟨session, hshown, hof⟩ := @exists_shown probe c s hc hkind
    refine ⟨session, List.mem_filter.2 ⟨List.mem_filter.2 ⟨hshown, ?_⟩, ?_⟩, hof.containerName_eq⟩
    · rw [hof.containerRunning_eq, hrunning]
    · rw [hof.canonicalGitRoot_eq, hnone]
      rfl

/-! ### All containers -/

/-- The container was stopped, and then it was looked for and not found. -/
def VerifiedGone (calls : CallLog) (c : PodmanContainer) : Prop :=
  (∃ r, ⟨.stopIgnore c.containerName, r⟩ ∈ calls) ∧
    ⟨.containerExists c.containerName, .ok false⟩ ∈ calls

theorem mem_stopped_iff {calls : CallLog} {name : String} :
    name ∈ calls.filterMap stoppedName ↔ ∃ r, ⟨.stopIgnore name, r⟩ ∈ calls := by
  rw [List.mem_filterMap]
  constructor
  · rintro ⟨⟨o, r⟩, hcall, hname⟩
    cases o with
    | stopIgnore name' =>
      cases hname
      exact ⟨r, hcall⟩
    | _ => cases hname
  · rintro ⟨r, hcall⟩
    exact ⟨_, hcall, rfl⟩

/-- When no failure is reported, exactly the containers that were cleaned up are gone. -/
theorem verifiedGone_iff {sessions : List SessionRecord} {calls : CallLog}
    (h : Cleaned sessions calls []) :
    VerifiedGone calls c ↔ ∃ session ∈ sessions, session.containerName = c.containerName := by
  constructor
  · rintro ⟨hstopped, -⟩
    have hname := mem_stopped_iff.2 hstopped
    rw [h.stops] at hname
    exact List.mem_map.1 hname
  · rintro ⟨session, hmem, hname⟩
    obtain ⟨verified, hlooked⟩ := h.looked session hmem
    have hgone : verified = .ok false := by
      obtain hgone | ⟨failure, hfailure, -⟩ := h.told _ _ hlooked
      · exact hgone
      · cases hfailure
    refine ⟨mem_stopped_iff.1 ?_, ?_⟩
    · rw [h.stops, ← hname]
      exact List.mem_map_of_mem hmem
    · rw [← hname, ← hgone]
      exact hlooked

/-- What a successful `stop --all` has found, and that all of it is gone. -/
theorem exec_stopAllRunning_ok {w w' : WorldState} {t : List (Event HostOps WorldState)}
    (h : Exec (worldMachine Eq) stopAllRunning w t w' (.ok ())) :
    ∃ t1 t2 rounds, t = t1 ++ t2 ∧ SilentLog (log t1) ∧
      List.Forall₂ (FindsGroup w ((log t2).filterMap stoppedName))
        (partitionSessionsByGitRoot (runningSessions (shown w.host.gitRootProbe w.podman))).rooted
        rounds ∧
      Cleaned (rounds.flatMap Round.found ++ (partitionSessionsByGitRoot
        (runningSessions (shown w.host.gitRootProbe w.podman))).unrooted) (log t2) [] := by
  obtain ⟨error, hres, -⟩ | ⟨discovered, r, w1, t1, t2, rfl, hfinished, h1, h2⟩ :=
    exec_stopAllRunning h
  · cases hres
  obtain ⟨rfl, hview⟩ := exec_discover h1
  rw [view_all] at hview
  obtain rfl := Except.ok.inj hview
  obtain ⟨rounds, w2, t3, t4, rfl, hrounds, ⟨-, -, error, rfl⟩ | ⟨hend, unrooted, hexec, rfl⟩⟩ :=
    exec_cleanupAllRunningMatches h2
  · cases hfinished
  obtain ⟨_, hres, hunrooted, -⟩ := exec_cleanupManagedContainers hexec
  cases hres
  have hnil := finished_eq_ok.1 hfinished.symm
  have hcleaned := hrounds.cleaned_log.append hunrooted
  rw [hnil, ← log_append] at hcleaned
  refine ⟨t1, t3 ++ t4, rounds, rfl, silent_of_only h1 (only_discover _ _), ?_, hcleaned⟩
  refine (rounds_find hrounds hend).imp fun group round hfinds => ?_
  obtain ⟨s, names, discovered, hs, hsub, hview, hfound⟩ := hfinds.found
  refine ⟨s, names, discovered, hs, ?_, hview, hfound⟩
  rw [log_append, List.filterMap_append]
  exact List.Subset.trans hsub (List.subset_append_left _ _)

/-- What a round finds is running at the start, in the group of the round, and its hash agrees. -/
theorem of_found {w : WorldState} {stopped : List String} {group : SessionGroup} {round : Round}
    (h : FindsGroup w stopped group round) (hmem : session ∈ round.found) :
    ∃ c ∈ w.podman.containers, IsSessionOf w.host.gitRootProbe c session ∧
      (rootOf c == some group.canonicalGitRoot) = true ∧
      hashAgrees group.canonicalGitRoot c = true := by
  obtain ⟨s, names, discovered, hs, -, hview, hfound⟩ := h.found
  rw [hfound] at hmem
  obtain ⟨hmatch, hrunning⟩ := List.mem_filter.1 hmem
  obtain ⟨c1, hc1, hof, hroot, hagrees⟩ := (mem_exactMatches hview).1 session hmatch
  rw [hof.containerRunning_eq] at hrunning
  obtain ⟨c, hc, rfl | rfl⟩ := hs.old c1 hc1
  · exact ⟨c1, hc, hof, hroot, hagrees⟩
  · cases hrunning

/-- What a round does not find, of the containers of its group whose hash agrees, has been stopped. -/
theorem found_or_stopped {w : WorldState} {stopped : List String} {group : SessionGroup}
    {round : Round} (h : FindsGroup w stopped group round) (hc : c ∈ w.podman.containers)
    (hrunning : c.running = true) (hkind : c.kind.isSome = true)
    (hroot : (rootOf c == some group.canonicalGitRoot) = true)
    (hagrees : hashAgrees group.canonicalGitRoot c = true) :
    (∃ session ∈ round.found, session.containerName = c.containerName) ∨
      ∃ name ∈ stopped, name ∈ c.refs := by
  obtain ⟨s, names, discovered, hs, hsub, hview, hfound⟩ := h.found
  by_cases hnames : ∀ name ∈ names, name ∉ c.refs
  · obtain ⟨session, hmem, hof⟩ :=
      (mem_exactMatches hview).2 c (hs.only c hc hnames) hkind hroot hagrees
    refine .inl ⟨session, ?_, hof.containerName_eq⟩
    rw [hfound]
    exact List.mem_filter.2 ⟨hmem, by rw [hof.containerRunning_eq, hrunning]⟩
  · push Not at hnames
    obtain ⟨name, hname, hrefs⟩ := hnames
    exact .inr ⟨name, hsub hname, hrefs⟩

theorem exists_related {α β : Type} {R : α → β → Prop} {l : List α} {l' : List β}
    (h : List.Forall₂ R l l') : ∀ a ∈ l, ∃ b ∈ l', R a b := by
  induction h with
  | nil => exact fun _ ha => absurd ha List.not_mem_nil
  | cons hab _ ih =>
    refine List.forall_mem_cons.2 ⟨⟨_, List.mem_cons_self, hab⟩, fun a ha => ?_⟩
    obtain ⟨b, hb, hab'⟩ := ih a ha
    exact ⟨b, List.mem_cons_of_mem _ hb, hab'⟩

/-- **`stop --all`.** When it succeeds, the running containers are all gone exactly when the hash of
each agrees with the root of its group. -/
theorem stopAllRunning_complete_iff {w w' : WorldState} {t : List (Event HostOps WorldState)}
    (h : Exec (worldMachine Eq) stopAllRunning w t w' (.ok ())) :
    (∀ c ∈ w.podman.containers, isRunningOwned c = true → VerifiedGone (log t) c) ↔
      ∀ c ∈ w.podman.containers, isRunningOwned c = true → KeepsGroup w.podman c := by
  obtain ⟨t1, t2, rounds, rfl, hsilent, hfinds, hcleaned⟩ := exec_stopAllRunning_ok h
  have hall := hcleaned.silent_append hsilent
  rw [← log_append] at hall
  refine forall₂_congr fun c hc => forall_congr' fun hrun => ?_
  rw [verifiedGone_iff hall, ← isFound_iff w.host.gitRootProbe hc hrun]
  have hunrooted := mem_unrooted w.host.gitRootProbe hc
  constructor
  · rintro ⟨session, hmem, hname⟩
    rcases List.mem_append.1 hmem with hmem | hmem
    · obtain ⟨round, hround, hmem⟩ := List.mem_flatMap.1 hmem
      obtain ⟨group, hgroup, hfind⟩ := exists_related hfinds.flip round hround
      obtain ⟨c1, hc1, hof, hroot, hagrees⟩ := of_found hfind hmem
      obtain rfl := PodmanState.eq_of_mem_refs hc hc1 c.containerName_mem_refs
        (hname ▸ hof.containerName_eq ▸ c1.containerName_mem_refs)
      exact .inl ⟨hrun, _, List.mem_map_of_mem hgroup, hroot, hagrees⟩
    · exact .inr (hunrooted.1 (List.mem_map.2 ⟨session, hmem, hname⟩)).2
  · rintro (⟨-, path, hpath, hroot, hagrees⟩ | hnone)
    · obtain ⟨group, hgroup, rfl⟩ := List.mem_map.1 hpath
      obtain ⟨hrunning, hkind⟩ := Bool.and_eq_true_iff.1 hrun
      obtain ⟨round, hround, hfind⟩ := exists_related hfinds group hgroup
      obtain ⟨found, hfound, hname⟩ | ⟨name, hstopped, hrefs⟩ :=
        found_or_stopped hfind hc hrunning hkind hroot hagrees
      · exact ⟨found, List.mem_append_left _ (List.mem_flatMap.2 ⟨round, hround, hfound⟩), hname⟩
      · -- a container with the name of another one's reference is that other one
        rw [hcleaned.stops] at hstopped
        obtain ⟨found, hfound, rfl⟩ := List.mem_map.1 hstopped
        refine ⟨found, hfound, ?_⟩
        have hfrom : ∃ c1 ∈ w.podman.containers, IsSessionOf w.host.gitRootProbe c1 found := by
          rcases List.mem_append.1 hfound with hfound | hfound
          · obtain ⟨round', hround', hfound⟩ := List.mem_flatMap.1 hfound
            obtain ⟨group', -, hfind'⟩ := exists_related hfinds.flip round' hround'
            obtain ⟨c1, hc1, hof1, -⟩ := of_found hfind' hfound
            exact ⟨c1, hc1, hof1⟩
          · exact isSessionOf_of_mem_shown (List.mem_filter.1 (List.mem_filter.1 hfound).1).1
        obtain ⟨c1, hc1, hof1⟩ := hfrom
        rw [hof1.containerName_eq] at hrefs ⊢
        rw [PodmanState.eq_of_mem_refs hc1 hc c1.containerName_mem_refs hrefs]
    · obtain ⟨session, hmem, hname⟩ := List.mem_map.1 (hunrooted.2 ⟨hrun, hnone⟩)
      exact ⟨session, List.mem_append_right _ hmem, hname⟩

/-! ### A directory -/

/-- What a successful stop of a root has found in its scope under the lock is gone. -/
theorem exec_stopExactGitRoot_ok {w w' : WorldState} {t : List (Event HostOps WorldState)}
    {root : Utf8Path} {force : Bool} {target : SessionTargetInput}
    (h : Exec (worldMachine Eq) (stopExactGitRootMatches ⟨root, .scoped⟩ force target) w t w'
      (.ok ())) :
    ∃ discovered, view w.host.gitRootProbe w.podman (.forGitRoot root) .agentboxOwned =
        .ok discovered ∧ Cleaned (exactGitRootMatches discovered root) (log t) [] := by
  obtain ⟨failures, w1, t1, t2, rfl, h1, h2⟩ := exec_bind_ok h
  obtain ⟨rfl, rfl, hfinish⟩ := exec_ofExcept.1 h2
  have hnil : failures = [] := by
    unfold finishCleanup at hfinish
    split_ifs at hfinish with hnil
    exact hnil
  obtain ⟨e, -, -, hres⟩ | ⟨x1, t3, x2, rfl, hlock, h3, hunlock⟩ := exec_withGuard h1
  · cases hres
  obtain ⟨hpodman, hhost⟩ := lock_podman hlock
  obtain ⟨discovered, x3, t4, t5, rfl, hdiscover, h4⟩ := exec_bind_ok h3
  obtain ⟨rfl, hview⟩ := exec_discover hdiscover
  rw [hpodman, hhost] at hview
  obtain ⟨_, x4, t6, t7, rfl, h5, h6⟩ := exec_bind_ok h4
  obtain ⟨rfl, rfl, -⟩ := exec_ofExcept.1 h5
  obtain ⟨_, x5, t8, t9, rfl, h7, h8⟩ := exec_bind_ok h6
  obtain ⟨rfl, rfl, -⟩ := exec_ofExcept.1 h7
  obtain ⟨failures', hres, hcleaned, -⟩ := exec_cleanupManagedContainers h8
  cases hres
  rw [hnil] at hcleaned
  change Cleaned (exactGitRootMatches discovered root) _ _ at hcleaned
  refine ⟨discovered, hview, ?_⟩
  have hsilent := silent_of_only hdiscover (only_discover _ _)
  have hlog := (cleaned_lock (gitRootDigest64 root) (.ok ())).append
    ((hcleaned.silent_append hsilent).append_silent (silent_unlock (gitRootDigest64 root) ()))
  simpa using hlog

theorem only_stopExactGitRootMatches (plan : StopExactGitRootTarget) (force : Bool)
    (target : SessionTargetInput) :
    Only (S := HostOps) (fun o => isRun o = false) (stopExactGitRootMatches plan force target) := by
  have hdiscover : ∀ scope containerScope, Only (S := HostOps) (fun o => isRun o = false)
      (discover scope containerScope) := fun _ _ =>
    Only.weaken (reading_discover _ _) fun _ => not_isRun_of_isReading
  have hlocked : Only (S := HostOps) (fun o => isRun o = false)
      (stopExactGitRootLocked plan force target) := by
    unfold stopExactGitRootLocked
    split_ifs
    · exact .bind (hdiscover _ _) fun _ => .bind (only_ofExcept _) fun _ =>
        .bind (only_ofExcept _) fun _ => only_cleanupManagedContainers _
    · exact .bind (hdiscover _ _) fun _ => .bind (only_ofExcept _) fun _ =>
        .bind (only_ofExcept _) fun _ => only_cleanupManagedContainers _
  refine .bind ?_ fun _ => only_ofExcept _
  exact .bind ⟨rfl, only_ofExcept⟩ fun _ => .bind hlocked.attempt fun _ =>
    .bind ⟨rfl, only_done⟩ fun _ => only_ofExcept _

theorem exec_stopDirectory_ok {w w' : WorldState} {t : List (Event HostOps WorldState)}
    {path : OsPath} {force : Bool} (hexists : w.host.exists_ path = true)
    (h : Exec (worldMachine Eq) (stopTarget (.cli path) force) w t w' (.ok ())) :
    ∃ workspace t', resolveWorkspaceIdentity w.host path = .ok workspace ∧
      Exec (worldMachine Eq) (stopExactGitRootMatches ⟨workspace.canonicalGitRoot, .scoped⟩ force
        (.cli path)) w t' w' (.ok ()) := by
  obtain ⟨plan, w1, t1, t2, rfl, hresolve, hstop⟩ := exec_bind_ok h
  obtain ⟨t3, rfl, hread⟩ := exec_readHost hresolve
  obtain ⟨resolved, x2, t5, t6, rfl, htarget, hplan⟩ := exec_bind_ok hread
  obtain ⟨-, hx, hresolved⟩ := exec_ofExcept.1 htarget
  subst hx
  have hpath : resolveCliSessionTarget x2.host path = .ok resolved := hresolved.symm
  rw [resolveCliSessionTarget, if_pos hexists] at hpath
  rcases hworkspace : resolveWorkspaceIdentity x2.host path with e | workspace
  · rw [hworkspace] at hpath
    cases hpath
  · rw [hworkspace] at hpath
    obtain rfl := Except.ok.inj hpath
    obtain ⟨-, hw, hres⟩ := exec_done.1 hplan
    subst hw
    cases hres
    exact ⟨workspace, t2, rfl, hstop⟩

/-- **`stop --force` of a directory.** When it succeeds, no container of the root remains exactly when
the hash of each of them agrees with the root. -/
theorem stopDirectory_complete_iff {w w' : WorldState} {t : List (Event HostOps WorldState)}
    {path : OsPath} (hexists : w.host.exists_ path = true)
    (h : Exec (worldMachine Eq) (stopTarget (.cli path) true) w t w' (.ok ())) :
    ∃ workspace, resolveWorkspaceIdentity w.host path = .ok workspace ∧
      ((∀ c ∈ w'.podman.containers, c.kind.isSome = true →
          (rootOf c == some workspace.canonicalGitRoot) = false) ↔
        ∀ c ∈ w.podman.containers, c.kind.isSome = true →
          (rootOf c == some workspace.canonicalGitRoot) = true →
            hashAgrees workspace.canonicalGitRoot c = true) := by
  obtain ⟨workspace, t', hworkspace, hexec⟩ := exec_stopDirectory_ok hexists h
  refine ⟨workspace, hworkspace, ?_⟩
  obtain ⟨discovered, hview, hcleaned⟩ := exec_stopExactGitRoot_ok hexec
  have hno := (hexec.of_always (only_stopExactGitRootMatches _ _ _)).2
  have hreduces := (reduces_of_exec hexec hno).1
  constructor
  · intro hnone c hc hkind hroot
    by_contra hagrees
    -- the container is not found, so no reference to it is stopped
    have hkept : c ∈ w'.podman.containers := by
      refine hreduces.only c hc fun name hname hrefs => hagrees ?_
      rw [hcleaned.stops] at hname
      obtain ⟨session, hmem, rfl⟩ := List.mem_map.1 hname
      obtain ⟨c1, hc1, hof, -, hagrees1⟩ := (mem_exactMatches hview).1 session hmem
      rw [hof.containerName_eq] at hrefs
      rw [← PodmanState.eq_of_mem_refs hc1 hc c1.containerName_mem_refs hrefs]
      exact hagrees1
    rw [hnone c hkept hkind] at hroot
    cases hroot
  · intro hall c' hc' hkind
    by_contra hroot
    rw [Bool.not_eq_false] at hroot
    obtain ⟨c, hc, hsame⟩ := hreduces.old c' hc'
    have hlabels : c'.labels = c.labels ∧ c'.refs = c.refs := by
      rcases hsame with rfl | rfl
      · exact ⟨rfl, rfl⟩
      · exact ⟨rfl, rfl⟩
    rw [PodmanContainer.kind, hlabels.1] at hkind
    rw [rootOf, hlabels.1] at hroot
    obtain ⟨session, hmem, hof⟩ :=
      (mem_exactMatches hview).2 c hc hkind hroot (hall c hc hkind hroot)
    have hgone := (verifiedGone_iff hcleaned).2 ⟨session, hmem, hof.containerName_eq⟩
    refine absent_of_exec hexec hno hgone.2 c' hc' ?_
    rw [hlabels.2]
    exact c.containerName_mem_refs

/-! ### The claim of both commands -/

/-- **What stop leaves behind.** -/
theorem stop_complete_iff (w w' : WorldState) (t : List (Event HostOps WorldState)) :
    (Exec (worldMachine Eq) stopAllRunning w t w' (.ok ()) →
      ((∀ c ∈ w.podman.containers, isRunningOwned c = true → VerifiedGone (log t) c) ↔
        ∀ c ∈ w.podman.containers, isRunningOwned c = true → KeepsGroup w.podman c)) ∧
    ∀ path, w.host.exists_ path = true →
      Exec (worldMachine Eq) (stopTarget (.cli path) true) w t w' (.ok ()) →
      ∃ workspace, resolveWorkspaceIdentity w.host path = .ok workspace ∧
        ((∀ c ∈ w'.podman.containers, c.kind.isSome = true →
            (rootOf c == some workspace.canonicalGitRoot) = false) ↔
          ∀ c ∈ w.podman.containers, c.kind.isSome = true →
            (rootOf c == some workspace.canonicalGitRoot) = true →
              hashAgrees workspace.canonicalGitRoot c = true) :=
  ⟨stopAllRunning_complete_iff, fun _ => stopDirectory_complete_iff⟩

theorem find_removeRef (s : PodmanState) (ref : String) : (removeRef s ref).find ref = none := by
  refine PodmanState.find_eq_none.2 fun c hc href => ?_
  have hkept := (List.mem_filter.1 hc).2
  simp [href] at hkept

/-- On a host that does what it is asked, every container is cleaned up. -/
theorem result_cleanupManagedContainer (session : SessionRecord) (w : WorldState) :
    ∃ w', (cleanupManagedContainer session).result oblige w = (.ok none, w') := by
  have hverify : (ManagedContainerCleanup.stopAndVerify session.containerName).result oblige w =
      (.ok ⟨none, .removed⟩, w.setPodman (removeRef w.podman session.containerName)) := by
    have hgone : (⟨none, .ofExists (.ok ((removeRef w.podman session.containerName).find
        session.containerName).isSome)⟩ : ManagedContainerCleanup) = ⟨none, .removed⟩ := by
      rw [find_removeRef]
      rfl
    rw [← hgone]
    rfl
  have hremoved := @result_attempt HostOps Error Unit WorldState oblige
    (CodexAttachAuth.removeCodexAttachTokenForSession session)
    (w.setPodman (removeRef w.podman session.containerName))
  exact ⟨_, (result_bind_ok hverify _).trans ((result_bind_ok hremoved _).trans rfl)⟩

theorem result_cleanupManagedContainers : ∀ (sessions : List SessionRecord) (w : WorldState),
    ∃ w', (cleanupManagedContainers sessions).result oblige w = (.ok [], w')
  | [], w => ⟨w, rfl⟩
  | session :: sessions, w => by
    obtain ⟨w1, h1⟩ := result_cleanupManagedContainer session w
    obtain ⟨w2, h2⟩ := result_cleanupManagedContainers sessions w1
    refine ⟨w2, (result_bind_ok h1 _).trans ((result_bind_ok h2 _).trans rfl)⟩

theorem result_withGuard {α : Type} {digest64 : String} {operation : Command α} {w w' : WorldState}
    {a : α} (h : operation.result oblige { w with held := digest64 :: w.held } = (.ok a, w')) :
    (withGuard digest64 operation).result oblige w =
      (.ok a, { w' with held := w'.held.erase digest64 }) := by
  change (operation.attempt.bind fun result => (unlock digest64).bind fun _ =>
    Prog.ofExcept result).result oblige _ = _
  rw [result_bind_ok (result_attempt _ _), h]
  rfl

/-- A running container of the demo root without a hash label. -/
def demoUnhashed : PodmanContainer := demoContainer "unhashed" demoLabels

/-- A running container of the demo root with the hash of nothing. -/
def demoDrifted : PodmanContainer :=
  demoContainer "drifted" (demoLabels.insert LABEL_GIT_ROOT_HASH "drift")

def demoDrift : WorldState :=
  { demoWorld with podman := ⟨[demoUnhashed, demoDrifted], by decide⟩ }

theorem hashAgrees_demoDrifted : hashAgrees demoRoot demoDrifted = false := by decide +kernel

theorem view_demoDrift : ∃ discovered, view demoHost.gitRootProbe demoDrift.podman
    (.forGitRoot demoRoot) .agentboxOwned = .ok discovered := by
  refine ⟨_, (collected_gitRoot demoRoot _).2 ?_⟩
  decide +kernel

/-- The stop of the demo root succeeds on a host that does what it is asked. -/
theorem result_stopDirectory_demo : ∃ w', (stopTarget (.cli (.utf8 demoRoot)) true).result oblige
    demoDrift = (.ok (), w') := by
  obtain ⟨discovered, hview⟩ := view_demoDrift
  have hdiscover : (discoverSessions demoRoot).result oblige
      { demoDrift with held := [gitRootDigest64 demoRoot] } =
        (.ok discovered, { demoDrift with held := [gitRootDigest64 demoRoot] }) :=
    (result_discover _ _ _).trans (Prod.ext hview rfl)
  obtain ⟨session, hmem, -⟩ := (mem_exactMatches hview).2 demoUnhashed (.head _)
    (by decide +kernel) (by decide +kernel) (by decide +kernel)
  obtain ⟨w1, hclean⟩ := result_cleanupManagedContainers (exactGitRootMatches discovered demoRoot)
    { demoDrift with held := [gitRootDigest64 demoRoot] }
  have hlocked : (stopExactGitRootLocked ⟨demoRoot, .scoped⟩ true (.cli (.utf8 demoRoot))).result
      oblige { demoDrift with held := gitRootDigest64 demoRoot :: demoDrift.held } =
        (.ok [], w1) := by
    have hnonempty : StopExactGitRootTarget.requireNonEmptyMatches ⟨demoRoot, .scoped⟩
        (exactGitRootMatches discovered demoRoot) = .ok () := if_neg (List.ne_nil_of_mem hmem)
    have hforce : StopExactGitRootTarget.requireForceForMatches ⟨demoRoot, .scoped⟩
        (exactGitRootMatches discovered demoRoot).length true (.cli (.utf8 demoRoot)) =
          .ok () := by
      unfold StopExactGitRootTarget.requireForceForMatches requireForceForDuplicateMatches
      rw [Bool.not_true, Bool.and_false, if_neg Bool.false_ne_true]
    refine (result_bind_ok hdiscover _).trans ?_
    refine (result_bind_ok ((result_ofExcept _ _ _).trans (Prod.ext hnonempty rfl)) _).trans ?_
    exact (result_bind_ok ((result_ofExcept _ _ _).trans (Prod.ext hforce rfl)) _).trans hclean
  exact ⟨_, result_bind_ok (result_withGuard hlocked) _⟩

/-- `stop --all` succeeds on a host that does what it is asked. -/
theorem result_stopAllRunning_demo : ∃ w', stopAllRunning.result oblige demoDrift = (.ok (), w') := by
  obtain ⟨discovered, hview⟩ := view_demoDrift
  have hroots : (partitionSessionsByGitRoot (runningSessions
      (shown demoHost.gitRootProbe demoDrift.podman))).rooted.map SessionGroup.canonicalGitRoot =
        [demoRoot] := by decide +kernel
  obtain ⟨⟨root, sessions⟩, hrooted, rfl⟩ := List.map_eq_singleton_iff.1 hroots
  have hdiscover : (discoverSessions demoRoot).result oblige
      { demoDrift with held := [gitRootDigest64 demoRoot] } =
        (.ok discovered, { demoDrift with held := [gitRootDigest64 demoRoot] }) :=
    (result_discover _ _ _).trans (Prod.ext hview rfl)
  obtain ⟨w1, hclean⟩ := result_cleanupManagedContainers (runningMatches demoRoot discovered)
    { demoDrift with held := [gitRootDigest64 demoRoot] }
  have hguard : (withLockedGitRoot demoRoot
      (cleanupRunningExactMatchesForLockedRoot demoRoot)).result oblige demoDrift = _ :=
    result_withGuard ((result_bind_ok hdiscover _).trans hclean)
  have hgroups : (cleanupRootedSessionGroups .runningExactMatches (partitionSessionsByGitRoot
      (runningSessions (shown demoHost.gitRootProbe demoDrift.podman))).rooted).result oblige
        demoDrift = (.ok [], { w1 with held := w1.held.erase (gitRootDigest64 demoRoot) }) := by
    rw [hrooted]
    exact (result_bind_ok hguard _).trans rfl
  obtain ⟨w2, hunrooted⟩ := result_cleanupManagedContainers (partitionSessionsByGitRoot
    (runningSessions (shown demoHost.gitRootProbe demoDrift.podman))).unrooted
    { w1 with held := w1.held.erase (gitRootDigest64 demoRoot) }
  refine ⟨w2, ?_⟩
  have hall : discoverAgentboxContainers.result oblige demoDrift =
      (.ok (shown demoHost.gitRootProbe demoDrift.podman), demoDrift) :=
    (result_discover _ _ _).trans (Prod.ext (view_all demoHost.gitRootProbe demoDrift.podman) rfl)
  refine (result_bind_ok hall _).trans ?_
  have hmatches : (cleanupAllRunningMatches (runningSessions
      (shown demoHost.gitRootProbe demoDrift.podman))).result oblige demoDrift = (.ok [], w2) :=
    (result_bind_ok hgroups _).trans ((result_bind_ok hunrooted _).trans rfl)
  exact result_bind_ok hmatches _

/-- Both stops succeed, and leave a container alone whose hash label is not that of its root. -/
theorem not_stop_complete :
    (¬ ∀ w w' t, Exec (worldMachine Eq) stopAllRunning w t w' (.ok ()) →
      ∀ c ∈ w.podman.containers, isRunningOwned c = true → VerifiedGone (log t) c) ∧
    ¬ ∀ w w' t path workspace, w.host.exists_ path = true →
      resolveWorkspaceIdentity w.host path = .ok workspace →
      Exec (worldMachine Eq) (stopTarget (.cli path) true) w t w' (.ok ()) →
      ∀ c ∈ w'.podman.containers, c.kind.isSome = true →
        (rootOf c == some workspace.canonicalGitRoot) = false := by
  have hkind : demoDrifted.kind.isSome = true := by decide +kernel
  have hroot : (rootOf demoDrifted == some demoRoot) = true := by decide +kernel
  constructor
  · intro h
    obtain ⟨w', hresult⟩ := result_stopAllRunning_demo
    have hexec := exec_run (I := Eq) (fun _ => rfl) stopAllRunning demoDrift
    rw [show (stopAllRunning.run oblige demoDrift).1 = .ok () from (Prod.mk.inj hresult).1] at hexec
    have hkeeps := (stopAllRunning_complete_iff hexec).1 (h _ _ _ hexec) demoDrifted
      (.tail _ (.head _)) (by rw [isRunningOwned, hkind]; rfl)
    have hspelled : spelledRoot demoDrift.podman demoRoot = some demoRoot := by decide +kernel
    have hagrees := hkeeps demoRoot (by decide +kernel) demoRoot hspelled
    rw [hashAgrees_demoDrifted] at hagrees
    cases hagrees
  · intro h
    obtain ⟨w', hresult⟩ := result_stopDirectory_demo
    have hexec := exec_run (I := Eq) (fun _ => rfl) (stopTarget (.cli (.utf8 demoRoot)) true)
      demoDrift
    rw [show ((stopTarget (.cli (.utf8 demoRoot)) true).run oblige demoDrift).1 = .ok () from
      (Prod.mk.inj hresult).1] at hexec
    obtain ⟨workspace, hworkspace, hiff⟩ := stopDirectory_complete_iff rfl hexec
    have hagrees := hiff.1 (h _ _ _ _ workspace rfl hworkspace hexec) demoDrifted
      (.tail _ (.head _)) hkind
    obtain rfl := Except.ok.inj (hworkspace.symm.trans resolve_demo)
    have hfalse := (hagrees hroot).symm.trans hashAgrees_demoDrifted
    cases hfalse

end Agentbox.Commands.StopCompleteness
