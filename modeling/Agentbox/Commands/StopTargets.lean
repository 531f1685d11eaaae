import Agentbox.Commands.LockProtocol
import Agentbox.Commands.StopCompleteness

/-! # Stopping targets

A stop by a directory or by a stored path lists the containers of the root under its lock, and stops
what matches there. A stop by an id lists before it takes a lock, and then stops what it has listed,
root by root, each one under its lock. No target keeps another one from being stopped. -/

namespace Agentbox.Commands.StopTargets

open Agentbox.Base.Path Agentbox.Base.Errors Agentbox.Files.Snapshot Agentbox.Lib.Program
  Agentbox.Workspace.Identity Agentbox.Session.Record Agentbox.Session.Discovery
  Agentbox.Session.Selection Agentbox.Session.Target Agentbox.Commands.HostCalls
  Agentbox.Commands.WorkspaceFlow Agentbox.Commands.ContainerCleanup Agentbox.Commands.Stop
  Agentbox.Commands.Quiet Agentbox.Commands.World Agentbox.Commands.Obliging
  Agentbox.Commands.RoundTrip Agentbox.Commands.StopAll Agentbox.Commands.RestartSafety
  Agentbox.Commands.LockProtocol
open Agentbox.Session.ScopedDiscovery (demoRoot)
open Agentbox.Session.ConnectView (demoWorkspace)
open Agentbox.Commands.StopCompleteness (exists_related)

variable {σ : Type} {M : Machine HostOps σ} {s s' : σ} {t : List (Event HostOps σ)}

/-! ### Traces -/

/-- The names that a trace stops, in order. -/
def stops (t : List (Event HostOps σ)) : List String := (log t).filterMap stoppedName

/-- The event is between a lock of the digest and its unlock. -/
def UnderLock (digest64 : String) (t : List (Event HostOps σ)) (e : Event HostOps σ) : Prop :=
  ∃ before s1 s2 inner after, t = before ++ ⟨s1, .lockGuard digest64, .ok (), s2⟩ ::
    (inner ++ e :: after) ∧ ∀ e' ∈ inner, e'.op ≠ .unlock digest64

theorem UnderLock.append {digest64 : String} {e : Event HostOps σ} (h : UnderLock digest64 t e)
    (before after : List (Event HostOps σ)) : UnderLock digest64 (before ++ t ++ after) e := by
  obtain ⟨before', s1, s2, inner, after', rfl, hinner⟩ := h
  exact ⟨before ++ before', s1, s2, inner, after' ++ after, by simp, hinner⟩

/-- The trace reads the host, and there the target means this. -/
def Resolves (target : SessionTargetInput) (t : List (Event HostOps σ))
    (resolved : ResolvedSessionTarget) : Prop :=
  ∃ host, ⟨.readHost, host⟩ ∈ log t ∧ target.resolve host = .ok resolved

theorem Resolves.append {target : SessionTargetInput} {resolved : ResolvedSessionTarget}
    (h : Resolves target t resolved) (t' : List (Event HostOps σ)) :
    Resolves target (t ++ t') resolved := by
  obtain ⟨host, hhost, htarget⟩ := h
  rw [Resolves, log_append]
  exact ⟨host, List.mem_append_left _ hhost, htarget⟩

/-- The discovery that a stop makes under the lock of a root. -/
def discoverFor : StopExactGitRootTargetMode → Utf8Path → Command (List SessionRecord)
  | .scoped, root => discoverSessions root
  | .exactStoredPath, _ => discoverAgentboxContainers

/-- What is done root by root, up to a lock that fails. -/
inductive Visits (M : Machine HostOps σ) : List SessionGroup → List (Event HostOps σ) →
    Except Error (List ContainerCleanupFailure) → Prop
  | nil : Visits M [] [] (.ok [])
  | lockFailed {group : SessionGroup} {s1 s2 : σ} {error : Error} (groups : List SessionGroup) :
    Visits M (group :: groups) [⟨s1, .lockGuard (groupDigest group), .error error, s2⟩]
      (.error error)
  | cleaned {group : SessionGroup} {groups : List SessionGroup} {s1 s2 s3 s4 : σ}
      {cleaning rest : List (Event HostOps σ)} {failures : List ContainerCleanupFailure}
      {res : Except Error (List ContainerCleanupFailure)}
      (hcleaned : Cleaned group.sessions (log cleaning) failures)
      (hinside : ∀ e ∈ cleaning, inside group.canonicalGitRoot e.op)
      (hrest : Visits M groups rest res) :
    Visits M (group :: groups) (⟨s1, .lockGuard (groupDigest group), .ok (), s2⟩ ::
      (cleaning ++ [⟨s3, .unlock (groupDigest group), (), s4⟩]) ++ rest)
      (res.map fun rest => failures ++ rest)

section
variable {target : SessionTargetInput} {force : Bool} {res : Except Error Unit}

/-- The session is one of a listing that was made before the event. -/
def ListedBefore (M : Machine HostOps σ) (t : List (Event HostOps σ)) (e : Event HostOps σ)
    (session : SessionRecord) : Prop :=
  ∃ mode root before listing after s1 s2 sessions, t = before ++ listing ++ after ∧ e ∈ after ∧
    Exec M (discoverFor mode root) s1 listing s2 (.ok sessions) ∧ session ∈ sessions

theorem ListedBefore.append {e : Event HostOps σ} {session : SessionRecord}
    (h : ListedBefore M t e session) (before after : List (Event HostOps σ)) :
    ListedBefore M (before ++ t ++ after) e session := by
  obtain ⟨mode, root, before', listing, after', s1, s2, sessions, rfl, he, hlist, hmem⟩ := h
  exact ⟨mode, root, before ++ before', listing, after' ++ after, s1, s2, sessions, by simp,
    List.mem_append_left _ he, hlist, hmem⟩

end

end Agentbox.Commands.StopTargets
