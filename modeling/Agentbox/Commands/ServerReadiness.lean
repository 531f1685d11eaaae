import Agentbox.Commands.HostCalls
import Agentbox.Session.Inspected

/-! # Waiting for the server

`commands/server_readiness`: the loop that inspects a container until its server answers. What it
asks for are the interrupt flag, the clock, Podman and the health probe; `clock` says of these only
that time does not run back, and that a sleep takes at least as long as asked for.

* `Stops`: the answers at which the loop ends, and `Decides`: what it ends with.
* `exec_tryOnce`: one attempt.
* `exec_waitLoop`: the loop ends at the first answer that stops it, before its time is up.
* `wait_with_ends`: the wait from its start. -/

namespace Agentbox.Commands.ServerReadiness

open Agentbox.Base.Text Agentbox.Base.Path Agentbox.Base.Errors Agentbox.Metadata.Labels
  Agentbox.Metadata.Session Agentbox.Runtime.Kind Agentbox.Podman.Model Agentbox.Session.Inspected
  Agentbox.Workspace.Identity Agentbox.Lib.Program Agentbox.Commands.HostCalls

/-! ### Endpoints -/

/-- What the wait reads of an inspected container. -/
structure InspectedServer where
  inspect : PodmanContainerInspect
  status : String
  exitCode : Int

inductive RuntimeHealth
  | healthy
  | unhealthy (reason : String)
  deriving DecidableEq

inductive ServerEndpointState
  | ready (endpoint : AttachEndpoint)
  | pending (error : String)

def ServerEndpointContext.description : ServerEndpointContext → String
  | .managedSession => "managed session"
  | .transientRunContainer => "transient run container"

/-- `AttachLabelError::into_error`. -/
def intoError : AttachLabelError → Error
  | .missingLabel label => .msg ("missing required label `" ++ label ++ "`")
  | .runtime error => error
  | .malformedContainerPort error =>
    .msg ("malformed `io.agentbox.container_port` label: " ++ error)
  | .attachSchemeMismatch runtime actual expected =>
    .msg ("managed session has attach scheme `" ++ actual ++ "` but runtime `" ++ runtime.asStr ++
      "` requires `" ++ expected ++ "`")
  | .containerPortMismatch runtime actual expected =>
    .msg ("managed session publishes container port `" ++ Nat.repr actual ++ "` but runtime `" ++
      runtime.asStr ++ "` requires `" ++ Nat.repr expected ++ "`")
  | .containerListenIpMismatch runtime actual expected =>
    .msg ("managed session has container listen IP `" ++ actual ++ "` but runtime `" ++
      runtime.asStr ++ "` requires `" ++ expected ++ "`")

def discoverAttachEndpointFromInspect (inspect : PodmanContainerInspect) :
    Except Error AttachEndpoint :=
  match attachLabels ⟨inspect.labels⟩ with
  | .error error => .error (intoError error)
  | .ok runtime => deriveAttachEndpoint runtime inspect

def discoverAttachEndpointFromRuntimeInspect (runtime : RuntimeKind)
    (inspect : PodmanContainerInspect) : Except Error AttachEndpoint :=
  match publishedAttachEndpoint inspect.ports runtime.attachSpec with
  | .error error => .error error
  | .ok (some endpoint) => .ok endpoint
  | .ok none => .error (.msg ("transient run container has no published attach port for `" ++
      runtime.attachSpec.tcpPortKey ++ "`"))

/-! ### The wait -/

/-- A wait for one server, with its durations. -/
structure ServerEndpointWaiter where
  workspace : WorkspaceIdentity
  runtime : RuntimeKind
  context : ServerEndpointContext
  timeout : Nat
  pollInterval : Nat

inductive ReadinessOp
  | interrupted
  | now
  | inspectContainer (containerName : String)
  | check (runtime : RuntimeKind) (endpoint : AttachEndpoint)
  | sleep (duration : Nat)

def ReadinessOp.Ret : ReadinessOp → Type
  | interrupted => Bool
  | now => Nat
  | inspectContainer _ => Except Error InspectedServer
  | check _ _ => RuntimeHealth
  | sleep _ => Unit

abbrev ReadinessOps : Sig := ⟨ReadinessOp, ReadinessOp.Ret⟩

abbrev Wait (α : Type) := Prog ReadinessOps Error α

/-- One call of the wait, with its answer. -/
abbrev Answer := (o : ReadinessOp) × o.Ret

namespace ServerEndpointWaiter

variable (w : ServerEndpointWaiter)

def attachEndpoint (server : InspectedServer) : Except Error AttachEndpoint :=
  match w.context with
  | .managedSession => discoverAttachEndpointFromInspect server.inspect
  | .transientRunContainer => discoverAttachEndpointFromRuntimeInspect w.runtime server.inspect

def exitedError (server : InspectedServer) : Error :=
  .msg (ServerEndpointContext.description w.context ++ " `" ++ w.workspace.containerName ++
    "` for `" ++ w.workspace.canonicalGitRoot.asStr ++ "` exited before the `" ++ w.runtime.asStr ++
    "` runtime server became reachable; status: " ++ server.status ++ ", exit code: " ++
    toString server.exitCode)

def notReachable (endpoint : AttachEndpoint) : String :=
  "endpoint `" ++ endpoint.display ++ "` is not reachable yet"

def timeoutError (lastError : Option String) : Error :=
  .msg ("runtime server for " ++ ServerEndpointContext.description w.context ++ " `" ++
    w.workspace.containerName ++ "` in `" ++ w.workspace.canonicalGitRoot.asStr ++
    "` did not become reachable: " ++ lastError.getD "no inspect data was available")

def inspectServerEndpoint (server : InspectedServer) : Wait ServerEndpointState :=
  if server.inspect.running = false then .fail (w.exitedError server)
  else match w.attachEndpoint server with
    | .error error => .done (.pending error.display)
    | .ok endpoint => .call (.check w.runtime endpoint) fun health =>
      match health with
      | .healthy => .done (.ready endpoint)
      | .unhealthy _ => .done (.pending (notReachable endpoint))

/-- The inspection of one turn of the loop. -/
def tryOnce : Wait ServerEndpointState :=
  .call (.inspectContainer w.workspace.containerName) fun inspected =>
    match inspected with
    | .ok server => w.inspectServerEndpoint server
    | .error error => .done (.pending error.display)

/-- The loop, for at most so many turns; none where they are used up. -/
def waitLoop (deadline : Nat) : Nat → Option String → Wait (Option ServerEndpointWait)
  | 0, _ => .done none
  | turns + 1, lastError => .call .interrupted fun (interrupted : Bool) =>
    if interrupted = true then .done (some .interrupted)
    else .call .now fun (now : Nat) =>
      if deadline ≤ now then .fail (w.timeoutError lastError)
      else w.tryOnce.bind fun state =>
        match state with
        | .ready endpoint => .done (some (.ready endpoint))
        | .pending error => .call (.sleep w.pollInterval) fun _ =>
          waitLoop deadline turns (some error)

def waitWith (turns : Nat) : Wait (Option ServerEndpointWait) :=
  .call .now fun (start : Nat) => w.waitLoop (start + w.timeout) turns none

end ServerEndpointWaiter

/-- Answers at any time, which only goes on. -/
def clock : Machine ReadinessOps Nat where
  step s o r s' := s ≤ s' ∧ match o, r with
    | .now, time => time = s'
    | .sleep duration, _ => s + duration ≤ s'
    | _, _ => True

/-! ### Answers that stop the wait -/

def IsInspection : Answer → Bool
  | ⟨.inspectContainer _, _⟩ => true
  | _ => false

def inspections (l : List Answer) : Nat := l.countP IsInspection

theorem inspections_append (l l' : List Answer) :
    inspections (l ++ l') = inspections l + inspections l' := List.countP_append

theorem inspections_sleep (duration : Nat) (l : List Answer) :
    inspections (⟨.sleep duration, ()⟩ :: l) = inspections l := rfl

/-- The flag is set, the deadline reached, the container not running or the server healthy. -/
def Stops (deadline : Nat) : Answer → Prop
  | ⟨.interrupted, flag⟩ => flag = true
  | ⟨.now, time⟩ => deadline ≤ time
  | ⟨.inspectContainer _, inspected⟩ => ∃ server, inspected = .ok server ∧
      server.inspect.running = false
  | ⟨.check _ _, health⟩ => health = .healthy
  | ⟨.sleep _, _⟩ => False

/-- The reason for which the last attempt of the calls was not the end of the wait. -/
def lastReason (w : ServerEndpointWaiter) : Option String → List Answer → Option String
  | last, [] => last
  | last, ⟨.inspectContainer _, inspected⟩ :: l =>
    match inspected with
    | .error error => lastReason w (some error.display) l
    | .ok server =>
      match w.attachEndpoint server with
      | .error error => lastReason w (some error.display) l
      | .ok _ => lastReason w last l
  | last, ⟨.check _ endpoint, health⟩ :: l =>
    match health with
    | .unhealthy _ => lastReason w (some (ServerEndpointWaiter.notReachable endpoint)) l
    | .healthy => lastReason w last l
  | last, ⟨.interrupted, _⟩ :: l => lastReason w last l
  | last, ⟨.now, _⟩ :: l => lastReason w last l
  | last, ⟨.sleep _, _⟩ :: l => lastReason w last l

/-- The answer that the wait ends with, after the calls `pre`, and its result. -/
inductive Decides (w : ServerEndpointWaiter) (deadline : Nat) (last : Option String) :
    List Answer → Answer → Except Error (Option ServerEndpointWait) → Prop
  | interrupted (pre : List Answer) :
    Decides w deadline last pre ⟨.interrupted, true⟩ (.ok (some .interrupted))
  | timedOut (pre : List Answer) {time : Nat} (h : deadline ≤ time) :
    Decides w deadline last pre ⟨.now, time⟩ (.error (w.timeoutError (lastReason w last pre)))
  | exited (pre : List Answer) {server : InspectedServer}
    (h : server.inspect.running = false) :
    Decides w deadline last pre ⟨.inspectContainer w.workspace.containerName, .ok server⟩
      (.error (w.exitedError server))
  | ready (pre : List Answer) {server : InspectedServer} {endpoint : AttachEndpoint}
    (hrunning : server.inspect.running = true) (h : w.attachEndpoint server = .ok endpoint) :
    Decides w deadline last (pre ++ [⟨.inspectContainer w.workspace.containerName, .ok server⟩])
      ⟨.check w.runtime endpoint, .healthy⟩ (.ok (some (.ready endpoint)))

variable {w : ServerEndpointWaiter} {deadline : Nat}

theorem lastReason_append (last : Option String) (l l' : List Answer) :
    lastReason w last (l ++ l') = lastReason w (lastReason w last l) l' := by
  fun_induction lastReason w last l <;> simp_all [lastReason]

/-- Calls before those that the wait ends with. -/
theorem Decides.append {last : Option String} {l pre : List Answer} {a : Answer}
    {res : Except Error (Option ServerEndpointWait)}
    (h : Decides w deadline (lastReason w last l) pre a res) :
    Decides w deadline last (l ++ pre) a res := by
  cases h with
  | interrupted => exact .interrupted _
  | timedOut _ h =>
    rw [← lastReason_append]
    exact .timedOut _ h
  | exited _ h => exact .exited _ h
  | ready pre hrunning h =>
    rw [← List.append_assoc]
    exact .ready _ hrunning h

/-! ### One attempt -/

section
variable {s s' : Nat} {t : List (Event ReadinessOps Nat)}

theorem exec_now {α : Type} {f : Nat → Wait α} {res : Except Error α}
    (h : Exec clock (.call .now f) s t s' res) : ∃ (time : Nat) (t1 : List (Event ReadinessOps Nat)),
      t = ⟨s, .now, time, time⟩ :: t1 ∧ s ≤ time ∧ Exec clock (f time) time t1 s' res := by
  obtain ⟨time, s1, t1, rfl, ⟨hs, rfl⟩, h⟩ := exec_call.1 h
  exact ⟨time, t1, rfl, hs, h⟩

theorem exec_interrupted {α : Type} {f : Bool → Wait α} {res : Except Error α}
    (h : Exec clock (.call .interrupted f) s t s' res) :
    ∃ (flag : Bool) (s1 : Nat) (t1 : List (Event ReadinessOps Nat)),
      t = ⟨s, .interrupted, flag, s1⟩ :: t1 ∧ s ≤ s1 ∧ Exec clock (f flag) s1 t1 s' res := by
  obtain ⟨flag, s1, t1, rfl, ⟨hs, -⟩, h⟩ := exec_call.1 h
  exact ⟨flag, s1, t1, rfl, hs, h⟩

/-- What an attempt comes to: the end of the wait, or a reason to go on. -/
inductive Attempted (w : ServerEndpointWaiter) (deadline : Nat) (l : List Answer) :
    Except Error ServerEndpointState → Prop
  | ready {pre : List Answer} {a : Answer} {endpoint : AttachEndpoint} (hl : l = pre ++ [a])
    (hpre : ∀ x ∈ pre, ¬ Stops deadline x)
    (h : ∀ last, Decides w deadline last pre a (.ok (some (.ready endpoint)))) :
    Attempted w deadline l (.ok (.ready endpoint))
  | exited {a : Answer} {error : Error} (hl : l = [a])
    (h : ∀ last, Decides w deadline last [] a (.error error)) : Attempted w deadline l (.error error)
  | pending {reason : String} (hl : ∀ x ∈ l, ¬ Stops deadline x)
    (h : ∀ last, lastReason w last l = some reason) : Attempted w deadline l (.ok (.pending reason))

theorem exec_tryOnce {res : Except Error ServerEndpointState} (h : Exec clock w.tryOnce s t s' res) :
    s ≤ s' ∧ inspections (log t) = 1 ∧ Attempted w deadline (log t) res := by
  obtain ⟨inspected, s1, t1, rfl, ⟨hs1, -⟩, h⟩ := exec_call.1 h
  rcases inspected with error | server
  · obtain ⟨rfl, rfl, rfl⟩ := exec_done.1 h
    refine ⟨hs1, rfl, .pending (fun x hx => ?_) fun last => rfl⟩
    rw [List.mem_singleton.1 hx]
    rintro ⟨server, hserver, -⟩
    cases hserver
  · simp only [ServerEndpointWaiter.inspectServerEndpoint] at h
    by_cases hrunning : server.inspect.running = false
    · rw [if_pos hrunning] at h
      obtain ⟨rfl, rfl, rfl⟩ := exec_fail.1 h
      exact ⟨hs1, rfl, .exited rfl fun last => .exited [] hrunning⟩
    · rw [if_neg hrunning] at h
      -- an inspection that shows the container running does not stop the wait
      have hkeep : ¬ Stops deadline
          ⟨.inspectContainer w.workspace.containerName, .ok server⟩ := by
        rintro ⟨server', hserver, hstopped⟩
        exact hrunning (Except.ok.inj hserver ▸ hstopped)
      rcases hendpoint : w.attachEndpoint server with error | endpoint
      · rw [hendpoint] at h
        obtain ⟨rfl, rfl, rfl⟩ := exec_done.1 h
        refine ⟨hs1, rfl, .pending (fun x hx => ?_) fun last => ?_⟩
        · rwa [List.mem_singleton.1 hx]
        · simp [lastReason, hendpoint]
      · rw [hendpoint] at h
        obtain ⟨health, s2, t2, rfl, ⟨hs2, -⟩, h⟩ := exec_call.1 h
        cases health with
        | healthy =>
          obtain ⟨rfl, rfl, rfl⟩ := exec_done.1 h
          refine ⟨by omega, rfl, @Attempted.ready w deadline _ [_] _ _ rfl (fun x hx => ?_) fun last =>
            .ready [] (by simpa using hrunning) hendpoint⟩
          rwa [List.mem_singleton.1 hx]
        | unhealthy reason =>
          obtain ⟨rfl, rfl, rfl⟩ := exec_done.1 h
          refine ⟨by omega, rfl, .pending (fun x hx => ?_) fun last => ?_⟩
          · rcases List.mem_cons.1 hx with rfl | hx
            · exact hkeep
            · rw [List.mem_singleton.1 hx]
              exact fun h : RuntimeHealth.unhealthy reason = .healthy => (nomatch h)
          · simp [lastReason, hendpoint]

/-! ### The loop -/

/-- The wait is over at the first answer that stops it. -/
structure Ends (w : ServerEndpointWaiter) (deadline : Nat) (last : Option String) (l : List Answer)
    (res : Except Error (Option ServerEndpointWait)) : Prop where
  first : ∃ pre a, l = pre ++ [a] ∧ (∀ x ∈ pre, ¬ Stops deadline x) ∧ Decides w deadline last pre a res

theorem Ends.append {last : Option String} {l l' : List Answer}
    {res : Except Error (Option ServerEndpointWait)} (hl : ∀ x ∈ l, ¬ Stops deadline x)
    (h : Ends w deadline (lastReason w last l) l' res) : Ends w deadline last (l ++ l') res := by
  obtain ⟨pre, a, rfl, hpre, ha⟩ := h.first
  refine ⟨l ++ pre, a, by rw [List.append_assoc], fun x hx => ?_, ha.append⟩
  rcases List.mem_append.1 hx with hx | hx
  · exact hl x hx
  · exact hpre x hx

/-- One poll interval more, before a wait that its deadline bounds. -/
theorem add_mul_lt {count poll start later deadline : Nat}
    (h : count = 0 ∨ later + (count - 1) * poll < deadline) (hlater : start + poll ≤ later)
    (hstart : start < deadline) : start + count * poll < deadline := by
  cases count with
  | zero => omega
  | succ n =>
    rw [Nat.add_sub_cancel] at h
    rw [Nat.add_mul]
    omega

/-- The two calls that a turn begins with. -/
theorem log_turn (s1 now : Nat) (t : List (Event ReadinessOps Nat)) :
    log ((⟨s, .interrupted, false, s1⟩ : Event ReadinessOps Nat) :: ⟨s1, .now, now, now⟩ :: t) =
      ([⟨.interrupted, false⟩, ⟨.now, now⟩] : List Answer) ++ log t := rfl

/-- The loop ends before its turns are used up when they are enough for the time that is left; and
all of its inspections but the last are followed by a sleep. -/
theorem exec_waitLoop : ∀ {turns : Nat} {last : Option String} {s : Nat}
    {t : List (Event ReadinessOps Nat)} {res : Except Error (Option ServerEndpointWait)},
    Exec clock (w.waitLoop deadline turns last) s t s' res → 0 < turns →
    deadline ≤ s + (turns - 1) * w.pollInterval →
    Ends w deadline last (log t) res ∧ (inspections (log t) = 0 ∨
      s + (inspections (log t) - 1) * w.pollInterval < deadline)
  | 0, _, _, _, _, _, hturns, _ => absurd hturns (Nat.lt_irrefl 0)
  | turns + 1, last, s, t, res, h, _, henough => by
    obtain ⟨flag, s1, t1, rfl, hs1, h⟩ := exec_interrupted h
    cases flag with
    | true =>
      obtain ⟨rfl, rfl, rfl⟩ := exec_done.1 h
      exact ⟨⟨[], _, rfl, by simp, .interrupted []⟩, .inl rfl⟩
    | false =>
      simp only [Bool.false_eq_true, if_false] at h
      obtain ⟨now, t2, rfl, hs2, h⟩ := exec_now h
      by_cases htime : deadline ≤ now
      · rw [if_pos htime] at h
        obtain ⟨rfl, rfl, rfl⟩ := exec_fail.1 h
        refine ⟨⟨[⟨.interrupted, false⟩], _, rfl, ?_, .timedOut _ htime⟩, .inl rfl⟩
        simp [Stops]
      · rw [if_neg htime] at h
        have hhead : ∀ x ∈ ([⟨.interrupted, false⟩, ⟨.now, now⟩] : List Answer),
            ¬ Stops deadline x := by
          simp [Stops, htime]
        have hnone : inspections [⟨.interrupted, false⟩, ⟨.now, now⟩] = 0 := rfl
        obtain ⟨e, rfl, htry⟩ | ⟨state, s3, t3, t4, rfl, htry, h⟩ := exec_bind.1 h
        · obtain ⟨-, hcount, hattempted⟩ : _ ∧ _ ∧ Attempted w deadline _ _ := exec_tryOnce htry
          cases hattempted with
          | exited hl hdecides =>
            rw [log_turn, inspections_append, hnone, hcount]
            exact ⟨Ends.append hhead ⟨[], _, hl, by simp, hdecides _⟩, .inr (by omega)⟩
        · obtain ⟨hs3, hcount, hattempted⟩ : _ ∧ _ ∧ Attempted w deadline _ _ := exec_tryOnce htry
          rw [log_turn, log_append, inspections_append, inspections_append, hnone, hcount]
          cases hattempted with
          | ready hl hpre hdecides =>
            obtain ⟨rfl, rfl, rfl⟩ := exec_done.1 h
            rw [log_nil, List.append_nil]
            exact ⟨Ends.append hhead ⟨_, _, hl, hpre, hdecides _⟩,
              .inr (by simp only [inspections, List.countP_nil]; omega)⟩
          | @pending reason hl hreason =>
            obtain ⟨⟨⟩, s4, t5, rfl, ⟨-, hsleep⟩, h⟩ := exec_call.1 h
            have hleft : 0 < turns := by
              rcases Nat.eq_zero_or_pos turns with rfl | hpos
              · omega
              · exact hpos
            have hturn : (turns + 1 - 1) * w.pollInterval =
                (turns - 1) * w.pollInterval + w.pollInterval := by
              obtain ⟨n, rfl⟩ : ∃ n, turns = n + 1 := ⟨turns - 1, by omega⟩
              simp [Nat.add_mul]
            obtain ⟨hends, hbound⟩ := exec_waitLoop h hleft (by omega)
            have hsleeps : ¬ Stops deadline ⟨.sleep w.pollInterval, ()⟩ := id
            have htail : Ends w deadline (some reason)
                ([⟨.sleep w.pollInterval, ()⟩] ++ log t5) res := by
              refine Ends.append (fun x hx => ?_) hends
              rwa [List.mem_singleton.1 hx]
            refine ⟨Ends.append hhead (Ends.append hl ?_), .inr ?_⟩
            · rw [hreason]
              exact htail
            · rw [log_cons, inspections_sleep]
              have hone : 0 + (1 + inspections (log t5)) - 1 = inspections (log t5) := by omega
              rw [hone]
              exact add_mul_lt hbound (by omega) (by omega)

end

/-- **The wait is over at the first answer that stops it, after no more inspections than there are
poll intervals in its timeout.** -/
theorem wait_with_ends (w : ServerEndpointWaiter) (turns : Nat) {s s' : Nat}
    {t : List (Event ReadinessOps Nat)} {res : Except Error (Option ServerEndpointWait)}
    (hpoll : 0 < w.pollInterval)
    (hturns : (w.timeout + w.pollInterval - 1) / w.pollInterval < turns)
    (h : Exec clock (w.waitWith turns) s t s' res) :
    ∃ (start : Nat) (pre : List Answer) (a : Answer), log t = ⟨.now, start⟩ :: (pre ++ [a]) ∧
      (∀ x ∈ pre, ¬ Stops (start + w.timeout) x) ∧
      Decides w (start + w.timeout) none pre a res ∧
      inspections (log t) ≤ (w.timeout + w.pollInterval - 1) / w.pollInterval := by
  obtain ⟨start, t1, rfl, -, h⟩ := exec_now h
  obtain ⟨bound, hbound⟩ : ∃ n, n = (w.timeout + w.pollInterval - 1) / w.pollInterval := ⟨_, rfl⟩
  have hceil : w.timeout ≤ bound * w.pollInterval := by
    have hdiv := Nat.div_add_mod (w.timeout + w.pollInterval - 1) w.pollInterval
    have hmod := Nat.mod_lt (w.timeout + w.pollInterval - 1) hpoll
    rw [← hbound, Nat.mul_comm] at hdiv
    omega
  rw [← hbound] at hturns ⊢
  have henough : start + w.timeout ≤ start + (turns - 1) * w.pollInterval := by
    have hle : bound * w.pollInterval ≤ (turns - 1) * w.pollInterval :=
      Nat.mul_le_mul_right _ (by omega)
    omega
  obtain ⟨⟨pre, a, hl, hpre, hdecides⟩, hcount⟩ := exec_waitLoop h (by omega) henough
  refine ⟨start, pre, a, congrArg _ hl, hpre, hdecides, ?_⟩
  show inspections (log t1) ≤ bound
  rw [hbound, Nat.le_div_iff_mul_le hpoll]
  cases hn : inspections (log t1) with
  | zero => omega
  | succ n =>
    rw [hn, Nat.add_sub_cancel] at hcount
    rw [Nat.add_mul]
    omega

def impatient : ServerEndpointWaiter :=
  ⟨workspaceAt ⟨"/src/box"⟩, .opencode, .managedSession, 1, 1⟩

/-- Podman has no such container, and then the time is up. -/
def impatientTrace : List (Event ReadinessOps Nat) :=
  [⟨0, .now, (0 : Nat), 0⟩, ⟨0, .interrupted, false, 0⟩, ⟨0, .now, (0 : Nat), 0⟩,
    ⟨0, .inspectContainer impatient.workspace.containerName, .error (.msg "no such container"), 0⟩,
    ⟨0, .sleep 1, (), 1⟩, ⟨1, .interrupted, false, 1⟩, ⟨1, .now, (1 : Nat), 1⟩]

theorem exec_impatient : Exec clock (impatient.waitWith 2) 0 impatientTrace 1
    (.error (impatient.timeoutError (some "no such container"))) := by
  refine .call ⟨le_rfl, rfl⟩ (.call ⟨le_rfl, trivial⟩ (.call ⟨le_rfl, rfl⟩ (.call ⟨le_rfl, trivial⟩
    (.call ⟨zero_le_one, le_rfl⟩ (.call ⟨le_rfl, trivial⟩ (.call ⟨le_rfl, rfl⟩ ?_))))))
  exact .fail _ _

theorem wait_with_ends_impatient :
    ∃ (start : Nat) (pre : List Answer) (a : Answer),
      log impatientTrace = ⟨.now, start⟩ :: (pre ++ [a]) ∧
      (∀ x ∈ pre, ¬ Stops (start + impatient.timeout) x) ∧
      Decides impatient (start + impatient.timeout) none pre a
        (.error (impatient.timeoutError (some "no such container"))) ∧
      inspections (log impatientTrace) ≤ 1 :=
  wait_with_ends impatient 2 (by decide) (by decide) exec_impatient

end Agentbox.Commands.ServerReadiness
