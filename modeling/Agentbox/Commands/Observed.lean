import Agentbox.Commands.Health
import Agentbox.Commands.Lifecycle

/-! # What can be seen of a session

In the worlds that the life of a session leads through, `ps` and `health` show the session of the
root while there is one, and none when it is stopped, whatever other containers there are. -/

namespace Agentbox.Commands.Observed

open Agentbox.Base.Path Agentbox.Base.Errors Agentbox.Files.Snapshot Agentbox.Metadata.Labels
  Agentbox.Metadata.Session Agentbox.Podman.Model Agentbox.Podman.State Agentbox.Runtime.Kind
  Agentbox.Workspace.Identity Agentbox.Session.Record Agentbox.Session.Discovery
  Agentbox.Session.Status Agentbox.Session.Collected Agentbox.Session.ScopedDiscovery
  Agentbox.Session.Views Agentbox.Session.Claimants Agentbox.Session.ConnectView
  Agentbox.Session.HealthTarget Agentbox.Commands.HostCalls Agentbox.Commands.World
  Agentbox.Commands.Kindly Agentbox.Commands.Lifecycle Agentbox.Commands.Health

/-- The session has the root. -/
def hasRoot (root : Utf8Path) (session : SessionRecord) : Bool :=
  session.canonicalGitRoot == some root

/-- The directory is in the repository of the root. -/
def IsInside (host : Host) (root dir : Utf8Path) : Prop :=
  host.exists_ (.utf8 dir) = true ∧ ∃ workspace,
    resolveWorkspaceIdentity host (.utf8 dir) = .ok workspace ∧ workspace.canonicalGitRoot = root

variable {root target dir : Utf8Path} {runtime : RuntimeKind} {serverArgs : List String}
  {probe : GitRootProbe} {host : Host} {s : PodmanState} {c : PodmanContainer}
  {own others : List PodmanContainer}

theorem hasRoot_of_apart (h : Apart root c) {kind : AgentboxContainerKind}
    (hkind : c.kind = some kind) : hasRoot root (record probe c kind) = false := by
  have hbelongs := (h probe kind hkind).1
  unfold belongs at hbelongs
  exact (Bool.or_eq_false_iff.1 hbelongs).1

/-! ### `ps` -/

theorem filter_shown (probe : GitRootProbe) (s : PodmanState) :
    (shown probe s).filter (hasRoot root) = markDuplicateSessions
      ((records probe s .all .agentboxOwned).filter (hasRoot root)) := by
  refine (markDuplicateSessions_filter (fun _ => rfl) ?_).symm
  intro r _ hr key hkey r' _ hkey'
  obtain ⟨-, path, hpath, hcomponents⟩ := countedRoot_eq_some.1 hkey
  obtain ⟨-, path', hpath', hcomponents'⟩ := countedRoot_eq_some.1 hkey'
  unfold hasRoot at hr ⊢
  rw [hpath, some_beq_some, Utf8Path.beq_iff] at hr
  rw [hpath', some_beq_some, Utf8Path.beq_iff, hcomponents', ← hcomponents, hr]

/-- What is recorded for the root does not depend on the containers that are apart from it. -/
theorem perm_records_hasRoot (hperm : s.containers.Perm (own ++ others))
    (hothers : ∀ c ∈ others, Apart root c) :
    ((records probe s .all .agentboxOwned).filter (hasRoot root)).Perm
      ((own.filterMap fun c => c.kind.map fun kind => record probe c kind).filter
        (hasRoot root)) := by
  have hnone : (others.filterMap fun c => c.kind.map fun kind => record probe c kind).filter
      (hasRoot root) = [] := by
    refine List.filter_eq_nil_iff.2 fun r hr => ?_
    obtain ⟨c, hc, hrecord⟩ := List.mem_filterMap.1 hr
    obtain ⟨kind, hkind, rfl⟩ := Option.map_eq_some_iff.1 hrecord
    rw [Bool.not_eq_true]
    exact hasRoot_of_apart (hothers c hc) hkind
  have hall := (hperm.filterMap fun c => c.kind.map fun kind => record probe c kind).filter
    (hasRoot root)
  rw [List.filterMap_append, List.filter_append, hnone, List.append_nil] at hall
  rw [records_all]
  exact hall

theorem shown_of_idle (hperm : s.containers.Perm others) (hothers : ∀ c ∈ others, Apart root c) :
    (shown probe s).filter (hasRoot root) = [] := by
  have hrecords := @perm_records_hasRoot root probe s [] others hperm hothers
  rw [filter_shown, hrecords.eq_nil]
  rfl

theorem shown_of_serving (hperm : s.containers.Perm (c :: others))
    (hothers : ∀ c ∈ others, Apart root c)
    (hc : SessionOf root target runtime serverArgs probe c) :
    (shown probe s).filter (hasRoot root) = [record probe c .managed] := by
  have hhas : hasRoot root (record probe c .managed) = true := by
    rw [hasRoot, hc.gitRoot, some_beq_some, Utf8Path.beq_self]
  have hrecords := @perm_records_hasRoot root probe s [c] others hperm hothers
  rw [List.filterMap_cons, hc.kind] at hrecords
  have hone := List.perm_singleton.1 (hrecords.trans (by
    rw [Option.map_some, List.filterMap_nil, List.filter_cons_of_pos hhas]
    rfl))
  rw [filter_shown, hone, markDuplicateSessions_singleton]

/-! ### `health` -/

theorem perm_managed_hasRoot (hperm : s.containers.Perm (own ++ others))
    (hothers : ∀ c ∈ others, Apart root c) :
    ((managedContainers s).filter fun c => hasRoot root (record probe c .managed)).Perm
      (own.filter fun c => c.kind == some .managed && hasRoot root (record probe c .managed)) := by
  have hnone : others.filter (fun c =>
      c.kind == some .managed && hasRoot root (record probe c .managed)) = [] := by
    refine List.filter_eq_nil_iff.2 fun c hc hboth => ?_
    obtain ⟨hkind, hroot⟩ := Bool.and_eq_true_iff.1 hboth
    rw [hasRoot_of_apart (hothers c hc) (eq_of_beq hkind)] at hroot
    cases hroot
  have hall := hperm.filter fun c =>
    c.kind == some .managed && hasRoot root (record probe c .managed)
  rw [List.filter_append, hnone, List.append_nil] at hall
  rw [managedContainers, List.filter_filter]
  refine (List.Perm.of_eq (List.filter_congr fun c _ => ?_)).trans hall
  exact Bool.and_comm _ _

theorem servesAlone_of_session (hperm : s.containers.Perm (c :: others))
    (hothers : ∀ c ∈ others, Apart root c)
    (hc : SessionOf root target runtime serverArgs probe c) : ServesAlone probe s c where
  mem := mem_managedContainers.2 ⟨hperm.mem_iff.2 List.mem_cons_self, hc.kind⟩
  running := hc.status
  alone root' hroot' c' hc' hcounts := by
    obtain ⟨hmem, hkind⟩ := mem_managedContainers.1 hc'
    obtain rfl : root = root' := Option.some.inj (hc.gitRoot.symm.trans hroot')
    rw [countsFor, hkind, Option.any_some, Bool.and_eq_true] at hcounts
    obtain heq | hother := List.mem_cons.1 (hperm.mem_iff.1 hmem)
    · exact heq
    · have hno : hasRoot root (record probe c' .managed) = false :=
        hasRoot_of_apart (hothers c' hother) hkind
      exact absurd (hno.symm.trans hcounts.2) Bool.false_ne_true

section
variable {Address : Type} {net : Network Address}

theorem fromTarget_of_inside (h : IsInside host root dir) :
    HealthSessionTargetPlan.fromTarget host (some dir.asStr) = .ok (.workspace root) := by
  obtain ⟨hexists, workspace, hworkspace, rfl⟩ := h
  simp only [HealthSessionTargetPlan.fromTarget, hexists, if_true, hworkspace]
  rfl

theorem health_of_idle (hperm : s.containers.Perm others) (hothers : ∀ c ∈ others, Apart root c)
    (hdir : IsInside host root dir) (rows : List HealthRow) :
    health net host probe s (some dir.asStr) ≠ .ok rows := by
  intro h
  obtain ⟨plan, sessions, hplan, hsessions, -⟩ := health_eq_ok.1 h
  rw [fromTarget_of_inside hdir] at hplan
  cases hplan
  obtain ⟨c, hone, -⟩ := (selectSessions_target (by simp)).1 hsessions
  have hnone := (@perm_managed_hasRoot root probe s [] others hperm hothers).eq_nil
  have hone : (managedContainers s).filter (fun c => hasRoot root (record probe c .managed)) =
    [c] := hone
  rw [hone] at hnone
  cases hnone

theorem health_of_serving (hperm : s.containers.Perm (c :: others))
    (hothers : ∀ c ∈ others, Apart root c)
    (hc : SessionOf root target runtime serverArgs probe c) (hdir : IsInside host root dir) :
    health net host probe s (some dir.asStr) = .ok [healthRow net (record probe c .managed)] := by
  have hhas : (c.kind == some .managed && hasRoot root (record probe c .managed)) = true := by
    rw [hc.kind, hasRoot, hc.gitRoot, some_beq_some, Utf8Path.beq_self]
    rfl
  have hone := @perm_managed_hasRoot root probe s [c] others hperm hothers
  simp only [List.filter_cons, hhas, if_true, List.filter_nil] at hone
  have halone := servesAlone_of_session hperm hothers hc
  refine health_eq_ok.2 ⟨_, _, fromTarget_of_inside hdir, (selectSessions_target (by simp)).2
    ⟨c, List.perm_singleton.1 hone, halone, rfl⟩, ?_⟩
  rw [healthRows, sortSessionRefsByIdentity, List.mergeSort_singleton]
  rfl

end

/-- **A session can be seen while it is there.** Without one, `ps` shows no session of the root, and
`health` prints nothing for a directory of it. While the root is served, `ps` shows this session
alone for it, as running, and `health` prints the row of its probe. -/
theorem observed {Address : Type} (net : Network Address) (w0 w : WorldState) (root : Utf8Path)
    (hroot : Unclaimed root w0) :
    (Idle root w0 w →
      (shown w.host.gitRootProbe w.podman).filter (hasRoot root) = [] ∧
      ∀ dir, IsInside w.host root dir → ∀ rows,
        health net w.host w.host.gitRootProbe w.podman (some dir.asStr) ≠ .ok rows) ∧
    (∀ target runtime serverArgs, Serving root target runtime serverArgs w0 w →
      ∃ c ∈ w.podman.containers,
        SessionOf root target runtime serverArgs w.host.gitRootProbe c ∧
        (shown w.host.gitRootProbe w.podman).filter (hasRoot root) =
          [record w.host.gitRootProbe c .managed] ∧
        ∀ dir, IsInside w.host root dir →
          health net w.host w.host.gitRootProbe w.podman (some dir.asStr) =
            .ok [healthRow net (record w.host.gitRootProbe c .managed)]) := by
  refine ⟨fun hidle => ⟨shown_of_idle hidle.containers hroot.apart, fun dir hdir rows =>
    health_of_idle hidle.containers hroot.apart hdir rows⟩, ?_⟩
  intro target runtime serverArgs hserving
  obtain ⟨c, hperm, hc⟩ := hserving.containers
  rw [← hserving.beside.host] at hc
  exact ⟨c, hperm.mem_iff.2 List.mem_cons_self, hc, shown_of_serving hperm hroot.apart hc,
    fun dir hdir => health_of_serving hperm hroot.apart hc hdir⟩

/-- The server of the root. -/
def demoServer : PodmanContainer :=
  { demoContainer "managed" (managedSessionLabels demoLabelInput) with
    names := some [(workspaceAt demoRoot).containerName] }

def demoServing : WorldState :=
  { RoundTrip.demoWorld with podman := ⟨[demoServer], by decide +kernel⟩ }

theorem sessionOf_demo : SessionOf demoRoot demoRoot .opencode []
    RoundTrip.demoWorld.host.gitRootProbe demoServer where
  names := rfl
  kind := by decide +kernel
  hash := by decide +kernel
  status := by decide +kernel
  gitRoot := by decide +kernel
  runtimeKind := by decide +kernel
  launchDirectory := by decide +kernel
  endpoint := Option.isSome_iff_exists.1 (by decide +kernel)
  serverArgs := by rfl
  limits := ⟨_, rfl⟩

theorem observed_demo : ∃ c ∈ demoServing.podman.containers,
    health demoNetwork RoundTrip.demoHost RoundTrip.demoHost.gitRootProbe demoServing.podman
      (some demoRoot.asStr) =
        .ok [healthRow demoNetwork (record RoundTrip.demoHost.gitRootProbe c .managed)] := by
  have hserving : Serving demoRoot demoRoot .opencode [] RoundTrip.demoWorld demoServing :=
    ⟨⟨rfl, rfl, fun _ _ => rfl⟩, ⟨demoServer, .refl _, sessionOf_demo⟩,
      fun h => (by cases h), fun _ => .inl rfl⟩
  obtain ⟨c, hc, -, -, hhealth⟩ :=
    (observed demoNetwork RoundTrip.demoWorld demoServing demoRoot unclaimed_demo).2 _ _ _ hserving
  exact ⟨c, hc, hhealth demoRoot ⟨rfl, demoWorkspace, RoundTrip.resolve_demo, rfl⟩⟩

end Agentbox.Commands.Observed
