import Agentbox.Commands.RoundTrip
import Agentbox.Commands.TransientRun

/-! # Stopping everything

`stop --all` groups the running containers by git root. A lock that fails, or a second discovery that
fails, ends the loop over the groups: the groups after it and the containers without a root are left
alone, and what was collected is lost. -/

namespace Agentbox.Commands.StopAll

open Agentbox.Base.Path Agentbox.Base.Errors Agentbox.Lib.Program Agentbox.Metadata.Labels
  Agentbox.Metadata.Session Agentbox.Podman.Model Agentbox.Podman.State
  Agentbox.Workspace.Identity Agentbox.Session.Record Agentbox.Session.Discovery
  Agentbox.Session.Collected Agentbox.Session.ScopedDiscovery Agentbox.Session.Views
  Agentbox.Session.ConnectView Agentbox.Session.Selection Agentbox.Commands.HostCalls
  Agentbox.Commands.WorkspaceFlow Agentbox.Commands.CodexAttachAuth
  Agentbox.Commands.ContainerCleanup Agentbox.Commands.Stop Agentbox.Commands.Quiet
  Agentbox.Commands.World
  Agentbox.Commands.Obliging Agentbox.Commands.RoundTrip Agentbox.Commands.TransientRun

variable {σ : Type} {M : Machine HostOps σ} {s s' : σ} {t : List (Event HostOps σ)}

/-! ### Calls -/

abbrev CallLog := List ((o : HostOp) × o.Ret)

def lockedDigest : (o : HostOp) × o.Ret → Option String
  | ⟨.lockGuard digest64, _⟩ => some digest64
  | _ => none

def stoppedName : (o : HostOp) × o.Ret → Option String
  | ⟨.stopIgnore containerName, _⟩ => some containerName
  | _ => none

/-- No lock is taken, and no container is stopped or looked for. -/
def isSilent : HostOp → Bool
  | .lockGuard _ | .stopIgnore _ | .containerExists _ => false
  | _ => true

def SilentLog (calls : CallLog) : Prop := ∀ call ∈ calls, isSilent call.1 = true

theorem lockedDigest_of_silent {call : (o : HostOp) × o.Ret} (h : isSilent call.1 = true) :
    lockedDigest call = none := by
  rcases call with ⟨o, r⟩
  cases o <;> first | rfl | cases h

theorem stoppedName_of_silent {call : (o : HostOp) × o.Ret} (h : isSilent call.1 = true) :
    stoppedName call = none := by
  rcases call with ⟨o, r⟩
  cases o <;> first | rfl | cases h

section
variable {calls : CallLog} (h : SilentLog calls)
include h

theorem SilentLog.locks : calls.filterMap lockedDigest = [] :=
  List.filterMap_eq_nil_iff.2 fun call hcall => lockedDigest_of_silent (h call hcall)

theorem SilentLog.stops : calls.filterMap stoppedName = [] :=
  List.filterMap_eq_nil_iff.2 fun call hcall => stoppedName_of_silent (h call hcall)

theorem SilentLog.not_exists {containerName : String} {verified : Except Error Bool} :
    (⟨.containerExists containerName, verified⟩ : (o : HostOp) × o.Ret) ∉ calls := by
  intro hmem
  cases h _ hmem

end

theorem silent_of_only {α : Type} {p : Command α} {res : Except Error α} (h : Exec M p s t s' res)
    (hp : Only (S := HostOps) (fun o => isSilent o = true) p) : SilentLog (log t) := by
  intro call hcall
  obtain ⟨e, he, rfl⟩ := List.mem_map.1 hcall
  exact (h.of_always hp).2 e he

theorem isSilent_of_isReading : ∀ {o : HostOp}, isReading o = true → isSilent o = true
  | o, h => by cases o <;> first | rfl | cases h

theorem only_discover (scope : SessionDiscoveryScope) (containerScope : ContainerDiscoveryScope) :
    Only (S := HostOps) (fun o => isSilent o = true) (discover scope containerScope) :=
  Only.weaken (reading_discover scope containerScope) fun _ => isSilent_of_isReading

theorem only_removeCodexAttachTokenForSession (session : SessionRecord) :
    Only (S := HostOps) (fun o => isSilent o = true)
      (removeCodexAttachTokenForSession session) := by
  unfold removeCodexAttachTokenForSession
  split_ifs
  · split
    · exact ⟨rfl, only_ofExcept⟩
    · exact only_done _
  · exact only_done _

/-! ### Cleaning up a list of containers -/

/-- The containers are stopped in order and looked for, and a failure is reported for each one that
is not found to be gone. -/
structure Cleaned (sessions : List SessionRecord) (calls : CallLog)
    (failures : List ContainerCleanupFailure) : Prop where
  stops : calls.filterMap stoppedName = sessions.map SessionRecord.containerName
  looked : ∀ session ∈ sessions, ∃ verified, ⟨.containerExists session.containerName, verified⟩ ∈ calls
  told : ∀ containerName verified, ⟨.containerExists containerName, verified⟩ ∈ calls →
    verified = .ok false ∨ ∃ failure ∈ failures, failure.containerName = containerName
  failed : ∀ failure ∈ failures,
    (∃ session ∈ sessions, session.containerName = failure.containerName) ∧
      ∃ verified, verified ≠ .ok false ∧ ⟨.containerExists failure.containerName, verified⟩ ∈ calls

theorem cleaned_of_silent {calls : CallLog} (h : SilentLog calls) : Cleaned [] calls [] where
  stops := h.stops
  looked _ hmem := absurd hmem List.not_mem_nil
  told _ _ hmem := absurd hmem h.not_exists
  failed _ hmem := absurd hmem List.not_mem_nil

section
variable {l l' : List SessionRecord} {calls calls' : CallLog}
  {failures failures' : List ContainerCleanupFailure}

theorem Cleaned.append (h : Cleaned l calls failures) (h' : Cleaned l' calls' failures') :
    Cleaned (l ++ l') (calls ++ calls') (failures ++ failures') where
  stops := by rw [List.filterMap_append, List.map_append, h.stops, h'.stops]
  looked session hmem := by
    obtain hmem | hmem := List.mem_append.1 hmem
    · obtain ⟨verified, hv⟩ := h.looked session hmem
      exact ⟨verified, List.mem_append_left _ hv⟩
    · obtain ⟨verified, hv⟩ := h'.looked session hmem
      exact ⟨verified, List.mem_append_right _ hv⟩
  told containerName verified hmem := by
    obtain hmem | hmem := List.mem_append.1 hmem
    · obtain hgone | ⟨failure, hf, hname⟩ := h.told containerName verified hmem
      · exact .inl hgone
      · exact .inr ⟨failure, List.mem_append_left _ hf, hname⟩
    · obtain hgone | ⟨failure, hf, hname⟩ := h'.told containerName verified hmem
      · exact .inl hgone
      · exact .inr ⟨failure, List.mem_append_right _ hf, hname⟩
  failed failure hmem := by
    obtain hmem | hmem := List.mem_append.1 hmem
    · obtain ⟨⟨session, hs, hname⟩, verified, hne, hv⟩ := h.failed failure hmem
      exact ⟨⟨session, List.mem_append_left _ hs, hname⟩, verified, hne, List.mem_append_left _ hv⟩
    · obtain ⟨⟨session, hs, hname⟩, verified, hne, hv⟩ := h'.failed failure hmem
      exact ⟨⟨session, List.mem_append_right _ hs, hname⟩, verified, hne,
        List.mem_append_right _ hv⟩

theorem Cleaned.silent_append (h : Cleaned l calls failures) (h' : SilentLog calls') :
    Cleaned l (calls' ++ calls) failures := (cleaned_of_silent h').append h

theorem Cleaned.append_silent (h : Cleaned l calls failures) (h' : SilentLog calls') :
    Cleaned l (calls ++ calls') failures := by
  have happend := h.append (cleaned_of_silent h')
  rwa [List.append_nil, List.append_nil] at happend

end

theorem containerName_of_cleanupFailure {containerName : String} {stopped : Except Error Unit}
    {verified : Except Error Bool} {failure : ContainerCleanupFailure}
    (h : cleanupFailure containerName stopped verified = some failure) :
    failure.containerName = containerName := by
  obtain ⟨issue, -, rfl⟩ := Option.map_eq_some_iff.1 h
  rfl

/-- The container is stopped, and then it is looked for. -/
theorem exec_cleanupManagedContainer {session : SessionRecord}
    {res : Except Error (Option ContainerCleanupFailure)}
    (h : Exec M (cleanupManagedContainer session) s t s' res) :
    ∃ stopped s1 verified s2 rest,
      t = ⟨s, .stopIgnore session.containerName, stopped, s1⟩ ::
        ⟨s1, .containerExists session.containerName, verified, s2⟩ :: rest ∧
      M.step s (.stopIgnore session.containerName) stopped s1 ∧
      M.step s1 (.containerExists session.containerName) verified s2 ∧ SilentLog (log rest) ∧
      res = .ok (cleanupFailure session.containerName stopped verified) := by
  unfold cleanupManagedContainer ManagedContainerCleanup.stopAndVerify at h
  simp only [Prog.bind_eq, Prog.bind_assoc] at h
  obtain ⟨stopped, s1, t1, rfl, hstop, h1⟩ :=
    (exec_attempt_call (S := HostOps) (o := .stopIgnore session.containerName) fun r => r).1 h
  obtain ⟨verified, s2, rest, rfl, hlook, h2⟩ :=
    (exec_attempt_call (S := HostOps) (o := .containerExists session.containerName) fun r => r).1 h1
  rw [Prog.pure_eq, Prog.done_bind] at h2
  refine ⟨stopped, s1, verified, s2, rest, rfl, hstop, hlook, ?_⟩
  unfold cleanupFailure
  split at h2
  · next failure hfailure =>
    obtain ⟨rfl, -, rfl⟩ := exec_done.1 h2
    exact ⟨fun _ hmem => absurd hmem List.not_mem_nil, by rw [hfailure]⟩
  · next hnone =>
    rw [hnone]
    obtain ⟨e, -, h3⟩ | ⟨removed, s3, t3, t4, rfl, h3, h4⟩ := exec_bind.1 h2
    · obtain ⟨r, hr, -⟩ := exec_attempt.1 h3
      cases hr
    · obtain ⟨rfl, -, rfl⟩ := exec_done.1 h4
      rw [List.append_nil]
      exact ⟨silent_of_only h3 (only_removeCodexAttachTokenForSession session).attempt, rfl⟩

/-- A container with its two calls. -/
theorem cleaned_cleanupLog (session : SessionRecord) (stopped : Except Error Unit)
    (verified : Except Error Bool) :
    Cleaned [session] (cleanupLog session.containerName stopped verified)
      (cleanupFailure session.containerName stopped verified).toList where
  stops := rfl
  looked session' hmem := by
    obtain rfl := List.mem_singleton.1 hmem
    exact ⟨verified, .tail _ (.head _)⟩
  told containerName verified' hmem := by
    rcases hmem with _ | ⟨_, _ | ⟨_, hmem⟩⟩
    · by_cases hgone : verified = .ok false
      · exact .inl hgone
      · obtain ⟨failure, hfailure⟩ := Option.ne_none_iff_exists'.1
          (mt (@cleanupFailure_eq_none session.containerName stopped verified).1 hgone)
        refine .inr ⟨failure, ?_, containerName_of_cleanupFailure hfailure⟩
        rw [hfailure]
        exact List.mem_singleton_self _
    · cases hmem
  failed failure hmem := by
    have hfailure := Option.mem_toList.1 hmem
    have hname := containerName_of_cleanupFailure hfailure
    refine ⟨⟨session, List.mem_singleton_self _, hname.symm⟩, verified, ?_, ?_⟩
    · intro hgone
      rw [cleanupFailure_eq_none.2 hgone] at hfailure
      cases hfailure
    · rw [hname]
      exact .tail _ (.head _)

theorem exec_cleanupManagedContainers : ∀ {sessions : List SessionRecord} {s s' : σ}
    {t : List (Event HostOps σ)} {res : Except Error (List ContainerCleanupFailure)},
    Exec M (cleanupManagedContainers sessions) s t s' res →
      ∃ failures, res = .ok failures ∧ Cleaned sessions (log t) failures ∧
        (log t).filterMap lockedDigest = []
  | [], s, s', t, res, h => by
    obtain ⟨rfl, -, rfl⟩ := exec_done.1 h
    exact ⟨[], rfl, cleaned_of_silent fun _ hmem => absurd hmem List.not_mem_nil, rfl⟩
  | session :: sessions, s, s', t, res, h => by
    unfold cleanupManagedContainers at h
    simp only [Prog.bind_eq] at h
    obtain ⟨e, -, h1⟩ | ⟨failure, s1, t1, t2, rfl, h1, h2⟩ := exec_bind.1 h
    · obtain ⟨_, _, _, _, _, -, -, -, -, hres⟩ := exec_cleanupManagedContainer h1
      cases hres
    obtain ⟨stopped, x1, verified, x2, rest, rfl, -, -, hrest, hres⟩ :=
      exec_cleanupManagedContainer h1
    cases hres
    obtain ⟨e, -, h3⟩ | ⟨failures, s2, t3, t4, rfl, h3, h4⟩ := exec_bind.1 h2
    · obtain ⟨failures, hres, -⟩ := exec_cleanupManagedContainers h3
      cases hres
    obtain ⟨failures', hres, hcleaned, hlocks⟩ := exec_cleanupManagedContainers h3
    cases hres
    obtain ⟨rfl, -, rfl⟩ := exec_done.1 h4
    refine ⟨_, rfl, ?_, ?_⟩
    · rw [List.append_nil, log_append]
      exact ((cleaned_cleanupLog session stopped verified).append_silent hrest).append hcleaned
    · rw [List.append_nil, log_append, List.filterMap_append, hlocks, List.append_nil]
      exact hrest.locks

/-! ### The loop over the groups -/

/-- How the loop goes on at a group. -/
inductive Round
  | lockFailed (error : Error)
  | discoveryFailed (error : Error)
  | cleaned (found : List SessionRecord) (failures : List ContainerCleanupFailure)

namespace Round

def error : Round → Option Error
  | lockFailed error | discoveryFailed error => some error
  | cleaned _ _ => none

def found : Round → List SessionRecord
  | cleaned found _ => found
  | _ => []

def failures : Round → List ContainerCleanupFailure
  | cleaned _ failures => failures
  | _ => []

end Round

/-- The containers that are found again under the lock. -/
def runningMatches (gitRoot : Utf8Path) (discovered : List SessionRecord) : List SessionRecord :=
  (exactGitRootMatches discovered gitRoot).filter fun session => session.containerRunning

def groupDigest (group : SessionGroup) : String := gitRootDigest64 group.canonicalGitRoot

/-- The rounds of the loop: the last one may be ended by its lock or its discovery. -/
inductive Rounds (M : Machine HostOps σ) :
    List SessionGroup → σ → List (Event HostOps σ) → σ → List Round → Prop
  | nil (s : σ) : Rounds M [] s [] s []
  | lockFailed {group : SessionGroup} {s s1 : σ} {error : Error} (groups : List SessionGroup)
      (hlock : M.step s (.lockGuard (groupDigest group)) (.error error) s1) :
    Rounds M (group :: groups) s [⟨s, .lockGuard (groupDigest group), .error error, s1⟩] s1
      [.lockFailed error]
  | discoveryFailed {group : SessionGroup} {s s1 s2 s3 : σ} {t : List (Event HostOps σ)}
      {error : Error} (groups : List SessionGroup)
      (hlock : M.step s (.lockGuard (groupDigest group)) (.ok ()) s1)
      (hdiscover : Exec M (discoverSessions group.canonicalGitRoot) s1 t s2 (.error error))
      (hunlock : M.step s2 (.unlock (groupDigest group)) () s3) :
    Rounds M (group :: groups) s (⟨s, .lockGuard (groupDigest group), .ok (), s1⟩ ::
      (t ++ [⟨s2, .unlock (groupDigest group), (), s3⟩])) s3 [.discoveryFailed error]
  | cleaned {group : SessionGroup} {groups : List SessionGroup} {s s1 s2 s3 s4 s5 : σ}
      {t1 t2 t3 : List (Event HostOps σ)} {discovered : List SessionRecord}
      {failures : List ContainerCleanupFailure} {rounds : List Round}
      (hlock : M.step s (.lockGuard (groupDigest group)) (.ok ()) s1)
      (hdiscover : Exec M (discoverSessions group.canonicalGitRoot) s1 t1 s2 (.ok discovered))
      (hclean : Exec M (cleanupManagedContainers
        (runningMatches group.canonicalGitRoot discovered)) s2 t2 s3 (.ok failures))
      (hunlock : M.step s3 (.unlock (groupDigest group)) () s4)
      (hrest : Rounds M groups s4 t3 s5 rounds) :
    Rounds M (group :: groups) s (⟨s, .lockGuard (groupDigest group), .ok (), s1⟩ ::
      (t1 ++ t2 ++ [⟨s3, .unlock (groupDigest group), (), s4⟩]) ++ t3) s5
      (.cleaned (runningMatches group.canonicalGitRoot discovered) failures :: rounds)

def roundsResult : List Round → Except Error (List ContainerCleanupFailure)
  | [] => .ok []
  | .lockFailed error :: _ | .discoveryFailed error :: _ => .error error
  | .cleaned _ failures :: rounds => (roundsResult rounds).map fun rest => failures ++ rest

theorem exec_runningExactMatches {gitRoot : Utf8Path}
    {res : Except Error (List ContainerCleanupFailure)}
    (h : Exec M (cleanupRunningExactMatchesForLockedRoot gitRoot) s t s' res) :
    (∃ error, res = .error error ∧ Exec M (discoverSessions gitRoot) s t s' (.error error)) ∨
      ∃ discovered failures s1 t1 t2, t = t1 ++ t2 ∧ res = .ok failures ∧
        Exec M (discoverSessions gitRoot) s t1 s1 (.ok discovered) ∧
        Exec M (cleanupManagedContainers (runningMatches gitRoot discovered)) s1 t2 s'
          (.ok failures) := by
  obtain herror | ⟨discovered, s1, t1, t2, rfl, h1, h2⟩ := exec_bind.1 h
  · exact .inl herror
  · change Exec M (cleanupManagedContainers (runningMatches gitRoot discovered)) _ _ _ _ at h2
    obtain ⟨failures, rfl, -⟩ := exec_cleanupManagedContainers h2
    exact .inr ⟨discovered, failures, s1, t1, t2, rfl, rfl, h1, h2⟩

theorem exec_cleanupRootedSessionGroups : ∀ {groups : List SessionGroup} {s s' : σ}
    {t : List (Event HostOps σ)} {res : Except Error (List ContainerCleanupFailure)},
    Exec M (cleanupRootedSessionGroups .runningExactMatches groups) s t s' res →
      ∃ rounds, Rounds M groups s t s' rounds ∧ res = roundsResult rounds
  | [], s, s', t, res, h => by
    obtain ⟨rfl, rfl, rfl⟩ := exec_done.1 h
    exact ⟨[], .nil _, rfl⟩
  | group :: groups, s, s', t, res, h => by
    unfold cleanupRootedSessionGroups at h
    obtain ⟨error, rfl, h1⟩ | ⟨groupFailures, s4, t1, t3, rfl, h1, h2⟩ := exec_bind.1 h
    · -- the group ends the loop
      obtain ⟨e, rfl, hlock, hres⟩ | ⟨s1, t1, s2, rfl, hlock, h1, hunlock⟩ := exec_withGuard h1
      · cases hres
        exact ⟨_, .lockFailed groups hlock, rfl⟩
      · obtain ⟨e, hres, hdiscover⟩ | ⟨_, _, _, _, _, -, hres, -⟩ := exec_runningExactMatches h1
        · cases hres
          exact ⟨_, .discoveryFailed groups hlock hdiscover hunlock, rfl⟩
        · cases hres
    · obtain ⟨e, -, -, hres⟩ | ⟨s1, t1, s3, rfl, hlock, h1, hunlock⟩ := exec_withGuard h1
      · cases hres
      obtain ⟨e, hres, -⟩ | ⟨discovered, failures, s2, t1, t2, rfl, hres, hdiscover, hclean⟩ :=
        exec_runningExactMatches h1
      · cases hres
      cases hres
      obtain ⟨error, rfl, h3⟩ | ⟨rest, s5, t4, t5, rfl, h3, h4⟩ := exec_bind.1 h2
      · obtain ⟨rounds, hrounds, hres⟩ := exec_cleanupRootedSessionGroups h3
        refine ⟨_, .cleaned hlock hdiscover hclean hunlock hrounds, ?_⟩
        rw [roundsResult, ← hres]
        rfl
      · obtain ⟨rounds, hrounds, hres⟩ := exec_cleanupRootedSessionGroups h3
        obtain ⟨rfl, rfl, rfl⟩ := exec_done.1 h4
        rw [List.append_nil]
        refine ⟨_, .cleaned hlock hdiscover hclean hunlock hrounds, ?_⟩
        rw [roundsResult, ← hres]
        rfl

/-! ### What the loop leaves -/

/-- A lock or a discovery has ended the loop. -/
def endedEarly (rounds : List Round) : Bool := rounds.any fun round => round.error.isSome

theorem cleaned_lock (digest64 : String) (r : HostOp.Ret (.lockGuard digest64)) :
    Cleaned [] [⟨.lockGuard digest64, r⟩] [] where
  stops := rfl
  looked _ hmem := absurd hmem List.not_mem_nil
  told _ _ hmem := by cases hmem with | tail _ hmem => cases hmem
  failed _ hmem := absurd hmem List.not_mem_nil

theorem silent_unlock (digest64 : String) (r : HostOp.Ret (.unlock digest64)) :
    SilentLog [⟨.unlock digest64, r⟩] := by
  intro call hmem
  obtain rfl := List.mem_singleton.1 hmem
  rfl

section
variable {groups : List SessionGroup} {rounds : List Round}

theorem Rounds.length_le (h : Rounds M groups s t s' rounds) : rounds.length ≤ groups.length := by
  induction h with
  | nil => exact le_rfl
  | lockFailed => simp
  | discoveryFailed => simp
  | cleaned _ _ _ _ _ ih =>
    simp only [List.length_cons]
    omega

theorem Rounds.length_eq (h : Rounds M groups s t s' rounds) (hend : endedEarly rounds = false) :
    rounds.length = groups.length := by
  induction h with
  | nil => rfl
  | lockFailed => cases hend
  | discoveryFailed => cases hend
  | cleaned _ _ _ _ _ ih => rw [List.length_cons, List.length_cons, ih hend]

theorem Rounds.locks (h : Rounds M groups s t s' rounds) :
    (log t).filterMap lockedDigest = (groups.take rounds.length).map groupDigest := by
  induction h with
  | nil => rfl
  | lockFailed => rfl
  | discoveryFailed groups hlock hdiscover hunlock =>
    have hsilent := silent_of_only hdiscover (only_discover _ _)
    simp only [log_cons, log_append, log_nil, List.filterMap_cons, List.filterMap_append,
      lockedDigest, hsilent.locks]
    rfl
  | cleaned hlock hdiscover hclean hunlock hrest ih =>
    have hsilent := silent_of_only hdiscover (only_discover _ _)
    obtain ⟨failures, -, -, hlocks⟩ := exec_cleanupManagedContainers hclean
    simp only [log_cons, log_append, log_nil, List.cons_append, List.filterMap_cons,
      List.filterMap_append, lockedDigest, hsilent.locks, hlocks, ih]
    rfl

theorem Rounds.cleaned_log (h : Rounds M groups s t s' rounds) :
    Cleaned (rounds.flatMap Round.found) (log t) (rounds.flatMap Round.failures) := by
  induction h with
  | nil => exact cleaned_of_silent fun _ hmem => absurd hmem List.not_mem_nil
  | lockFailed => exact cleaned_lock _ _
  | discoveryFailed groups hlock hdiscover hunlock =>
    have hsilent := silent_of_only hdiscover (only_discover _ _)
    rw [log_cons, log_append]
    exact (cleaned_lock _ _).append
      ((cleaned_of_silent hsilent).append_silent (silent_unlock _ _))
  | cleaned hlock hdiscover hclean hunlock hrest ih =>
    have hsilent := silent_of_only hdiscover (only_discover _ _)
    obtain ⟨failures, hres, hcleaned, -⟩ := exec_cleanupManagedContainers hclean
    cases hres
    rw [log_append, log_cons, log_append, log_append]
    exact ((cleaned_lock _ _).append
      ((hcleaned.silent_append hsilent).append_silent (silent_unlock _ _))).append ih

end

theorem roundsResult_error : ∀ {rounds : List Round}, endedEarly rounds = true →
    ∃ error, roundsResult rounds = .error error
  | .lockFailed error :: _, _ => ⟨error, rfl⟩
  | .discoveryFailed error :: _, _ => ⟨error, rfl⟩
  | .cleaned _ _ :: rounds, h => by
    obtain ⟨error, herror⟩ := @roundsResult_error rounds h
    exact ⟨error, by rw [roundsResult, herror]; rfl⟩

theorem roundsResult_ok : ∀ {rounds : List Round}, endedEarly rounds = false →
    roundsResult rounds = .ok (rounds.flatMap Round.failures)
  | [], _ => rfl
  | .lockFailed _ :: _, h => by cases h
  | .discoveryFailed _ :: _, h => by cases h
  | .cleaned _ _ :: rounds, h => by
    rw [roundsResult, @roundsResult_ok rounds h]
    rfl

/-- Both phases: the groups, and then the containers without a root. -/
theorem exec_cleanupAllRunningMatches {running : List SessionRecord}
    {r : Except Error (List ContainerCleanupFailure)}
    (h : Exec M (cleanupAllRunningMatches running) s t s' r) :
    ∃ rounds s1 t1 t2, t = t1 ++ t2 ∧
      Rounds M (partitionSessionsByGitRoot running).rooted s t1 s1 rounds ∧
      (endedEarly rounds = true ∧ t2 = [] ∧ (∃ error, r = .error error) ∨
        endedEarly rounds = false ∧ ∃ unrooted,
          Exec M (cleanupManagedContainers (partitionSessionsByGitRoot running).unrooted) s1 t2 s'
            (.ok unrooted) ∧ r = .ok (rounds.flatMap Round.failures ++ unrooted)) := by
  unfold cleanupAllRunningMatches at h
  obtain ⟨error, rfl, h1⟩ | ⟨failures, s1, t1, t2, rfl, h1, h2⟩ := exec_bind.1 h
  · obtain ⟨rounds, hrounds, hres⟩ := exec_cleanupRootedSessionGroups h1
    refine ⟨rounds, s', t, [], (List.append_nil t).symm, hrounds, .inl ⟨?_, rfl, error, rfl⟩⟩
    by_contra hend
    rw [roundsResult_ok (Bool.eq_false_iff.2 hend)] at hres
    cases hres
  · obtain ⟨rounds, hrounds, hres⟩ := exec_cleanupRootedSessionGroups h1
    refine ⟨rounds, s1, t1, t2, rfl, hrounds, .inr ?_⟩
    have hend : endedEarly rounds = false := by
      by_contra hend
      obtain ⟨error, herror⟩ := roundsResult_error (Bool.eq_true_of_not_eq_false hend)
      rw [herror] at hres
      cases hres
    rw [roundsResult_ok hend] at hres
    cases hres
    obtain ⟨error, rfl, h3⟩ | ⟨unrooted, s2, t3, t4, rfl, h3, h4⟩ := exec_bind.1 h2
    · obtain ⟨failures, hres, -⟩ := exec_cleanupManagedContainers h3
      cases hres
    · obtain ⟨rfl, rfl, rfl⟩ := exec_done.1 h4
      rw [List.append_nil]
      exact ⟨hend, unrooted, h3, rfl⟩

/-! ### Isolation -/

/-- The end of `stop --all`. -/
def finished (r : Except Error (List ContainerCleanupFailure)) : Except Error Unit :=
  r.bind (finishCleanup "all running agentbox containers")

/-- Podman has answered that there is no container of the name, or has not listed one. -/
def Gone (calls : CallLog) (containerName : String) : Prop :=
  ⟨.containerExists containerName, .ok false⟩ ∈ calls ∨
    ∃ containers : List PodmanPsContainer, ⟨.ps false, .ok containers⟩ ∈ calls ∧
      ∀ container ∈ containers, (container.names.bind List.head?).getD container.id ≠ containerName

def Reported (r : Except Error (List ContainerCleanupFailure)) (containerName : String) : Prop :=
  ∃ failures, r = .ok failures ∧ ∃ failure ∈ failures, failure.containerName = containerName

/-- Every group is tried, and after them the containers without a root. An error tells of every
container that is not gone. -/
structure Isolates (running : List SessionRecord) (calls : CallLog)
    (r : Except Error (List ContainerCleanupFailure)) : Prop where
  tried : ∃ before after, calls = before ++ after ∧
    before.filterMap lockedDigest = (partitionSessionsByGitRoot running).rooted.map groupDigest ∧
    after.filterMap lockedDigest = [] ∧ after.filterMap stoppedName =
      (partitionSessionsByGitRoot running).unrooted.map SessionRecord.containerName
  accounted : finished r ≠ .ok () → ∀ session ∈ running,
    Gone calls session.containerName ∨ Reported r session.containerName

theorem finished_eq_ok {failures : List ContainerCleanupFailure} :
    finished (.ok failures) = .ok () ↔ failures = [] := by
  change finishCleanup _ failures = _ ↔ _
  unfold finishCleanup
  split_ifs with h
  · exact iff_of_true rfl h
  · exact iff_of_false nofun h

section
variable {running : List SessionRecord} {rounds : List Round}

/-- When the loop is not ended early, an error has to tell of what was found and is not gone. -/
theorem isolates_iff_of_completed {s1 : σ} {t1 t2 : List (Event HostOps σ)}
    {unrooted : List ContainerCleanupFailure}
    (h : Rounds M (partitionSessionsByGitRoot running).rooted s t1 s1 rounds)
    (hend : endedEarly rounds = false)
    (hunrooted : Exec M (cleanupManagedContainers (partitionSessionsByGitRoot running).unrooted) s1
      t2 s' (.ok unrooted)) :
    Isolates running (log (t1 ++ t2)) (.ok (rounds.flatMap Round.failures ++ unrooted)) ↔
      (∀ containerName verified, ⟨.containerExists containerName, verified⟩ ∈ log (t1 ++ t2) →
        verified = .ok false) ∨
      ∀ session ∈ running, Gone (log (t1 ++ t2)) session.containerName ∨
        ∃ found ∈ rounds.flatMap Round.found ++ (partitionSessionsByGitRoot running).unrooted,
          found.containerName = session.containerName := by
  obtain ⟨_, hres, hunrooted, hlocks⟩ := exec_cleanupManagedContainers hunrooted
  cases hres
  have hcleaned := h.cleaned_log.append hunrooted
  rw [← log_append] at hcleaned
  have htried : ∃ before after, log (t1 ++ t2) = before ++ after ∧
      before.filterMap lockedDigest = (partitionSessionsByGitRoot running).rooted.map groupDigest ∧
      after.filterMap lockedDigest = [] ∧ after.filterMap stoppedName =
        (partitionSessionsByGitRoot running).unrooted.map SessionRecord.containerName := by
    refine ⟨log t1, log t2, log_append _ _, ?_, hlocks, hunrooted.stops⟩
    rw [h.locks, h.length_eq hend, List.take_length]
  set failures := rounds.flatMap Round.failures ++ unrooted
  constructor
  · rintro ⟨-, haccounted⟩
    by_cases hnil : failures = []
    · refine .inl fun containerName verified hmem => ?_
      obtain hgone | ⟨failure, hfailure, -⟩ := hcleaned.told containerName verified hmem
      · exact hgone
      · rw [hnil] at hfailure
        cases hfailure
    · refine .inr fun session hmem => ?_
      obtain hgone | ⟨failures', hres, failure, hfailure, hname⟩ :=
        haccounted (mt finished_eq_ok.1 hnil) session hmem
      · exact .inl hgone
      · cases hres
        obtain ⟨⟨found, hfound, hfoundName⟩, -⟩ := hcleaned.failed failure hfailure
        exact .inr ⟨found, hfound, hfoundName.trans hname⟩
  · intro hcondition
    refine ⟨htried, fun herror session hmem => ?_⟩
    obtain ⟨failure, hfailure⟩ := List.exists_mem_of_ne_nil failures (mt finished_eq_ok.2 herror)
    obtain ⟨-, verified, hne, hverified⟩ := hcleaned.failed failure hfailure
    obtain hall | hfound := hcondition
    · exact absurd (hall _ _ hverified) hne
    obtain hgone | ⟨found, hfound, hname⟩ := hfound session hmem
    · exact .inl hgone
    · obtain ⟨verified, hlooked⟩ := hcleaned.looked found hfound
      obtain rfl | hreported := hcleaned.told _ _ hlooked
      · exact .inl (.inl (hname ▸ hlooked))
      · exact .inr ⟨failures, rfl, hname ▸ hreported⟩

end

/-! ### The command -/

theorem infix_intercalate {a : String} (separator : String) : ∀ {l : List String}, a ∈ l →
    a.toList <:+: (separator.intercalate l).toList
  | [b], h => by
    obtain rfl := List.mem_singleton.1 h
    rw [String.intercalate_singleton]
  | b :: c :: l, h => by
    rw [String.intercalate_cons_cons, String.toList_append, String.toList_append]
    obtain rfl | h := List.mem_cons.1 h
    · exact (List.prefix_append _ _).isInfix.trans (List.prefix_append _ _).isInfix
    · exact (infix_intercalate separator h).trans (List.suffix_append _ _).isInfix

/-- The error of the command mentions every failure that is reported. -/
theorem mentions_finished {failures : List ContainerCleanupFailure}
    {failure : ContainerCleanupFailure} (h : failure ∈ failures) :
    ∃ error, finished (.ok failures) = .error error ∧ Mentions error failure.renderStopMessage := by
  have hne : failures ≠ [] := List.ne_nil_of_mem h
  have hfinished : finished (.ok failures) =
      .error (.msg (renderCleanupFailures "all running agentbox containers" failures)) :=
    if_neg hne
  refine ⟨_, hfinished, ?_⟩
  unfold Mentions Error.msg renderCleanupFailures
  rw [Error.display_message, String.toList_append, String.toList_append]
  have hmiddle := infix_intercalate "; " (List.mem_map_of_mem (f :=
    ContainerCleanupFailure.renderStopMessage) h)
  exact hmiddle.trans ((List.suffix_append _ _).isInfix.trans (List.prefix_append _ _).isInfix)

def runningSessions (discovered : List SessionRecord) : List SessionRecord :=
  discovered.filter fun session => session.containerRunning

theorem exec_stopAllRunning {res : Except Error Unit} (h : Exec M stopAllRunning s t s' res) :
    (∃ error, res = .error error ∧ Exec M discoverAgentboxContainers s t s' (.error error)) ∨
      ∃ discovered r s1 t1 t2, t = t1 ++ t2 ∧ res = finished r ∧
        Exec M discoverAgentboxContainers s t1 s1 (.ok discovered) ∧
        Exec M (cleanupAllRunningMatches (runningSessions discovered)) s1 t2 s' r := by
  obtain herror | ⟨discovered, s1, t1, t2, rfl, h1, h2⟩ := exec_bind.1 h
  · exact .inl herror
  · refine .inr ⟨discovered, ?_⟩
    obtain ⟨error, rfl, h3⟩ | ⟨failures, s2, t3, t4, rfl, h3, h4⟩ := exec_bind.1 h2
    · exact ⟨_, s1, t1, t2, rfl, rfl, h1, h3⟩
    · have hend : t4 = [] ∧ s' = s2 ∧ res = finished (.ok failures) := by
        change Exec M (Prog.ofExcept (finished (.ok failures))) _ _ _ _ at h4
        generalize finished (.ok failures) = r at h4 ⊢
        rcases r with e | u
        · exact exec_fail.1 h4
        · exact exec_done.1 h4
      obtain ⟨rfl, rfl, rfl⟩ := hend
      exact ⟨_, s1, t1, t3, by rw [List.append_nil], rfl, h1, h3⟩

/-- Marking keeps what the grouping and the cleanup read. -/
theorem exists_marked {sessions : List SessionRecord} {session : SessionRecord}
    (h : session ∈ sessions) : ∃ marked ∈ markDuplicateSessions sessions,
      marked.canonicalGitRoot = session.canonicalGitRoot ∧
        marked.containerRunning = session.containerRunning := by
  rw [markDuplicateSessions_eq]
  refine ⟨_, List.mem_map_of_mem h, ?_⟩
  split_ifs
  · exact ⟨rfl, rfl⟩
  · exact ⟨rfl, rfl⟩

def demoSession : PodmanContainer := demoContainer "session" (managedSessionLabels demoLabelInput)

/-- A container of agentbox without a git root. -/
def demoUnrooted : PodmanContainer :=
  demoContainer "unrooted" (.ofList [(LABEL_MANAGED, LABEL_MANAGED_VALUE)])

def demoBoth : WorldState :=
  { demoWorld with podman := ⟨[demoSession, demoUnrooted], by decide⟩ }

def demoDiscovered : List SessionRecord :=
  markDuplicateSessions (records demoHost.gitRootProbe demoBoth.podman .all .agentboxOwned)

def demoLockError : Error := .io "Permission denied (os error 13)"

theorem demoRunning_of_kind {c : PodmanContainer} {kind : AgentboxContainerKind}
    (hc : c ∈ demoBoth.podman.containers) (hkind : c.kind = some kind) (hrunning : c.running = true) :
    ∃ session ∈ runningSessions demoDiscovered,
      session.canonicalGitRoot = (record demoHost.gitRootProbe c kind).canonicalGitRoot := by
  have hrecord : record demoHost.gitRootProbe c kind ∈
      records demoHost.gitRootProbe demoBoth.podman .all .agentboxOwned := by
    refine mem_records.2 ⟨c, kind, hc, ?_, hkind, rfl⟩
    rw [isCandidate, hkind]
    rfl
  obtain ⟨marked, hmem, hroot, hmarked⟩ := exists_marked hrecord
  refine ⟨marked, List.mem_filter.2 ⟨hmem, ?_⟩, hroot⟩
  rw [hmarked]
  exact hrunning

/-- The lock of the session's root cannot be taken, and the other container is left alone. -/
theorem not_isolates : ∃ t1 t2 discovered error,
    Exec (worldMachine Eq) discoverAgentboxContainers demoBoth t1 demoBoth (.ok discovered) ∧
    Exec (worldMachine Eq) (cleanupAllRunningMatches (runningSessions discovered)) demoBoth t2
      demoBoth (.error error) ∧
    Exec (worldMachine Eq) stopAllRunning demoBoth (t1 ++ t2) demoBoth (.error error) ∧
    ¬ Isolates (runningSessions discovered) (log t2) (.error error) := by
  obtain ⟨t1, hdiscover⟩ : ∃ t1, Exec (worldMachine Eq) discoverAgentboxContainers demoBoth t1
      demoBoth (.ok demoDiscovered) := by
    have hrun := exec_run (I := Eq) (fun _ => rfl) discoverAgentboxContainers demoBoth
    have hview := Prod.mk.inj (result_discover .all .agentboxOwned demoBoth)
    rw [show (discoverAgentboxContainers.run oblige demoBoth).1 = .ok demoDiscovered from hview.1,
      show (discoverAgentboxContainers.run oblige demoBoth).2.1 = demoBoth from hview.2] at hrun
    exact ⟨_, hrun⟩
  have hsession : demoSession.kind = some .managed := by decide +kernel
  have hunrooted : demoUnrooted.kind = some .managed := by decide +kernel
  obtain ⟨session, hmem, hroot⟩ := demoRunning_of_kind (.head _) hsession rfl
  obtain ⟨unrooted, hmem', hnone⟩ := demoRunning_of_kind (.tail _ (.head _)) hunrooted rfl
  have hroot' : session.canonicalGitRoot = some demoRoot := hroot.trans (by decide +kernel)
  have hnone' : unrooted.canonicalGitRoot = none := hnone.trans (by decide +kernel)
  obtain ⟨group, groups, hrooted⟩ : ∃ group groups,
      (partitionSessionsByGitRoot (runningSessions demoDiscovered)).rooted = group :: groups := by
    obtain ⟨group, hgroup, -⟩ := exists_group hmem hroot'
    exact List.exists_cons_of_ne_nil (List.ne_nil_of_mem hgroup)
  have hclean : Exec (worldMachine Eq) (cleanupAllRunningMatches (runningSessions demoDiscovered))
      demoBoth [⟨demoBoth, .lockGuard (groupDigest group), .error demoLockError, demoBoth⟩]
      demoBoth (.error demoLockError) := by
    unfold cleanupAllRunningMatches
    simp only [hrooted]
    exact .call ⟨demoBoth, .inl ⟨⟨_, rfl⟩, rfl⟩, rfl⟩ (.fail _ _)
  refine ⟨t1, _, demoDiscovered, _, hdiscover, hclean,
    hdiscover.bind_ok (hclean.bind_error _), ?_⟩
  rintro ⟨⟨before, after, hsplit, -, -, hstops⟩, -⟩
  have hlog : ((before ++ after).filterMap stoppedName) = [] := by
    rw [← hsplit]
    rfl
  rw [List.filterMap_append, List.append_eq_nil_iff, hstops, List.map_eq_nil_iff] at hlog
  have hin : unrooted ∈ (partitionSessionsByGitRoot (runningSessions demoDiscovered)).unrooted :=
    List.mem_filter.2 ⟨hmem', by rw [hnone']; rfl⟩
  rw [hlog.2] at hin
  cases hin

end Agentbox.Commands.StopAll
