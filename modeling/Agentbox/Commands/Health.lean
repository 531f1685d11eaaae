import Agentbox.Commands.RoundTrip
import Agentbox.Commands.ServerReadiness
import Agentbox.Runtime.HttpProbe
import Agentbox.Session.HealthTarget

/-! # Health

`commands/health.rs` with the probe of `runtime/health.rs`: the rows that `agentbox health` prints
of a state of Podman, and of the answers of the servers.

* `check_eq`: the probe of one endpoint, over the addresses of its host.
* `isProbed_of_running`: a session that runs is probed.
* `health_exact`: the rows, without a target and for a target. -/

namespace Agentbox.Commands.Health

open Agentbox.Base.Path Agentbox.Base.Errors Agentbox.Files.Snapshot Agentbox.Metadata.Labels
  Agentbox.Metadata.Session Agentbox.Podman.Model Agentbox.Podman.State Agentbox.Workspace.Identity
  Agentbox.Runtime.Kind Agentbox.Runtime.HttpProbe Agentbox.Session.Record
  Agentbox.Session.Inspected Agentbox.Session.Discovery Agentbox.Session.Status
  Agentbox.Session.Collected Agentbox.Session.ScopedDiscovery Agentbox.Session.Views
  Agentbox.Session.Claimants Agentbox.Session.Selection Agentbox.Session.Connectable
  Agentbox.Session.ConnectView Agentbox.Session.HealthTarget Agentbox.Commands.ServerReadiness

/-! ### The probe -/

inductive RuntimeHealthResponsePolicy
  | httpOk
  | jsonHealthyFlag
  deriving DecidableEq

structure RuntimeHealthCheck where
  path : String
  responsePolicy : RuntimeHealthResponsePolicy

def healthCheck : RuntimeKind → RuntimeHealthCheck
  | .opencode => ⟨"/global/health", .jsonHealthyFlag⟩
  | .codex => ⟨"/readyz", .httpOk⟩

/-- An open connection: the requests that it takes, and what can be read after one. -/
structure Connection where
  writeAll : String → Bool
  reads : String → Stream

/-- What the probe asks the host for. The body of a response is decoded as `HealthyFlagResponse`. -/
structure Network (Address : Type) where
  toSocketAddrs : String → Nat → Option (List Address)
  connectTimeout : Address → Option Connection
  healthyFlag : List UInt8 → Option Bool

inductive GetResponseError
  | requestWriteFailed
  | response (error : HttpProbeError)

def httpGetRequest (endpoint : AttachEndpoint) (path : String) : String :=
  "GET " ++ path ++ " HTTP/1.1\r\nHost: " ++ endpoint.hostIp ++ ":" ++ Nat.repr endpoint.hostPort ++
    "\r\nConnection: close\r\n\r\n"

def getResponse (endpoint : AttachEndpoint) (connection : Connection) (path : String) :
    Except GetResponseError HttpResponse :=
  if connection.writeAll (httpGetRequest endpoint path) then
    (readResponse (connection.reads (httpGetRequest endpoint path))).mapError .response
  else .error .requestWriteFailed

section
variable {Address : Type} (net : Network Address)

def healthResponseStatus (response : HttpResponse) (policy : RuntimeHealthResponsePolicy) :
    RuntimeHealth :=
  if response.statusCode ≠ 200 then .unhealthy ("HTTP " ++ Nat.repr response.statusCode)
  else match policy with
    | .httpOk => .healthy
    | .jsonHealthyFlag =>
      match net.healthyFlag response.body with
      | some true => .healthy
      | some false => .unhealthy "healthy=false"
      | none => .unhealthy "malformed JSON"

def endpointConnectionHealth (check : RuntimeHealthCheck) (endpoint : AttachEndpoint)
    (connection : Connection) : RuntimeHealth :=
  match getResponse endpoint connection check.path with
  | .ok response => healthResponseStatus net response check.responsePolicy
  | .error _ => .unhealthy "unreachable"

/-- The health at one address, if it can be connected to. -/
def addressHealth (runtime : RuntimeKind) (endpoint : AttachEndpoint) (address : Address) :
    Option RuntimeHealth :=
  (net.connectTimeout address).map (endpointConnectionHealth net (healthCheck runtime) endpoint)

/-- The loop over the addresses. -/
def checkAddresses (runtime : RuntimeKind) (endpoint : AttachEndpoint) :
    List Address → Option RuntimeHealth → RuntimeHealth
  | [], lastUnhealthy => lastUnhealthy.getD (.unhealthy "unreachable")
  | address :: l, lastUnhealthy =>
    match addressHealth net runtime endpoint address with
    | none => checkAddresses runtime endpoint l lastUnhealthy
    | some health =>
      if health = .healthy then health else checkAddresses runtime endpoint l (some health)

/-- `HostRuntimeHealthProbe::check`. -/
def check (runtime : RuntimeKind) (endpoint : AttachEndpoint) : RuntimeHealth :=
  match net.toSocketAddrs endpoint.hostIp endpoint.hostPort with
  | some addresses => checkAddresses net runtime endpoint addresses none
  | none => .unhealthy "unreachable"

/-! ### The command -/

/-- A row, with the session that is displayed in it. -/
structure HealthRow where
  session : SessionRecord
  health : RuntimeHealth

def compareSessionsByIdentity : SessionRecord → SessionRecord → Ordering :=
  compareLex (compareOn fun session => session.canonicalGitRoot.map Utf8Path.asStr)
    (compareOn SessionRecord.containerName)

def sortSessionRefsByIdentity (sessions : List SessionRecord) : List SessionRecord :=
  sessions.mergeSort fun left right => (compareSessionsByIdentity left right).isLE

def healthRow (session : SessionRecord) : HealthRow where
  session
  health :=
    match session.runtimeKind, session.attachEndpoint with
    | some runtime, some endpoint => check net runtime endpoint
    | none, _ => .unhealthy "missing runtime metadata"
    | _, none => .unhealthy "missing attach endpoint"

def healthRows (sessions : List SessionRecord) : List HealthRow :=
  (sortSessionRefsByIdentity sessions).map (healthRow net)

/-- The rows that `health` prints. -/
def health (host : Host) (probe : GitRootProbe) (s : PodmanState) (target : Option String) :
    Except Error (List HealthRow) := do
  let sessions ← discovered (s.listing true) .all .managedSessions s.inspectOne probe
  let plan ← HealthSessionTargetPlan.fromTarget host target
  let sessions ← plan.selectSessions sessions
  return healthRows net sessions

end

/-! ### One endpoint -/

section
variable {Address : Type} {net : Network Address} {runtime : RuntimeKind}
  {endpoint : AttachEndpoint}

/-- The server answers a request of the probe as a healthy one does. -/
def AnswersHealthy (net : Network Address) (runtime : RuntimeKind) (endpoint : AttachEndpoint)
    (connection : Connection) : Prop :=
  ∃ response, getResponse endpoint connection (healthCheck runtime).path = .ok response ∧
    response.statusCode = 200 ∧
    ((healthCheck runtime).responsePolicy = .jsonHealthyFlag →
      net.healthyFlag response.body = some true)

theorem healthResponseStatus_eq_healthy {response : HttpResponse}
    {policy : RuntimeHealthResponsePolicy} :
    healthResponseStatus net response policy = .healthy ↔
      response.statusCode = 200 ∧
        (policy = .jsonHealthyFlag → net.healthyFlag response.body = some true) := by
  unfold healthResponseStatus
  by_cases hstatus : response.statusCode = 200
  · rw [if_neg (not_not.2 hstatus), and_iff_right hstatus]
    cases policy with
    | httpOk => simp
    | jsonHealthyFlag => rcases net.healthyFlag response.body with _ | _ | _ <;> simp
  · simp [hstatus]

theorem endpointConnectionHealth_eq_healthy {connection : Connection} :
    endpointConnectionHealth net (healthCheck runtime) endpoint connection = .healthy ↔
      AnswersHealthy net runtime endpoint connection := by
  unfold endpointConnectionHealth AnswersHealthy
  rcases getResponse endpoint connection (healthCheck runtime).path with e | response
  · simp
  · simp only [Except.ok.injEq, exists_eq_left', healthResponseStatus_eq_healthy]

/-- The loop returns the first healthy answer, else the last answer. -/
theorem checkAddresses_eq : ∀ (l : List Address) (lastUnhealthy : Option RuntimeHealth),
    checkAddresses net runtime endpoint l lastUnhealthy =
      (((l.filterMap (addressHealth net runtime endpoint)).find? (· = .healthy)).or
        ((l.filterMap (addressHealth net runtime endpoint)).getLast?.or lastUnhealthy)).getD
          (.unhealthy "unreachable")
  | [], _ => rfl
  | address :: l, lastUnhealthy => by
    unfold checkAddresses
    rcases haddress : addressHealth net runtime endpoint address with _ | health
    · rw [List.filterMap_cons_none haddress]
      exact checkAddresses_eq l lastUnhealthy
    · rw [List.filterMap_cons_some haddress, List.find?_cons]
      by_cases hhealthy : health = .healthy
      · simp [hhealthy]
      · simp only [hhealthy, if_false, decide_false]
        rw [checkAddresses_eq l (some health), List.getLast?_cons]
        rcases (l.filterMap (addressHealth net runtime endpoint)).getLast? with _ | last <;> rfl

/-- A probe is healthy exactly when some address of the endpoint answers so. -/
theorem check_eq_healthy : check net runtime endpoint = .healthy ↔
    ∃ addresses, net.toSocketAddrs endpoint.hostIp endpoint.hostPort = some addresses ∧
      ∃ address ∈ addresses, ∃ connection, net.connectTimeout address = some connection ∧
        AnswersHealthy net runtime endpoint connection := by
  have hanswers : ∀ l : List Address,
      RuntimeHealth.healthy ∈ l.filterMap (addressHealth net runtime endpoint) ↔
        ∃ address ∈ l, ∃ connection, net.connectTimeout address = some connection ∧
          AnswersHealthy net runtime endpoint connection := by
    intro l
    simp only [List.mem_filterMap, addressHealth, Option.map_eq_some_iff,
      endpointConnectionHealth_eq_healthy]
  unfold check
  rcases net.toSocketAddrs endpoint.hostIp endpoint.hostPort with _ | addresses
  · simp
  · simp only [Option.some.injEq, exists_eq_left', ← hanswers, checkAddresses_eq, Option.or_none]
    generalize addresses.filterMap (addressHealth net runtime endpoint) = answers
    constructor
    · intro h
      rcases hfind : answers.find? (· = .healthy) with _ | health
      · rw [hfind, Option.none_or] at h
        rcases hlast : answers.getLast? with _ | last
        · rw [hlast] at h
          cases h
        · rw [hlast] at h
          have hmem := List.mem_of_getLast? hlast
          rw [Option.getD_some] at h
          exact h ▸ hmem
      · have hhealthy := List.find?_some hfind
        rw [decide_eq_true_eq] at hhealthy
        exact hhealthy ▸ List.mem_of_find?_eq_some hfind
    · intro hmem
      rcases hfind : answers.find? (· = .healthy) with _ | health
      · have hno := List.find?_eq_none.1 hfind _ hmem
        simp at hno
      · have hhealthy := List.find?_some hfind
        rw [decide_eq_true_eq] at hhealthy
        rw [hfind, hhealthy]
        rfl

end

/-! ### Rows -/

section
variable {Address : Type} {net : Network Address} {host : Host} {probe : GitRootProbe}
  {s : PodmanState} {c : PodmanContainer} {row : HealthRow}

/-- The row of a container whose endpoint was probed. -/
def IsProbed (net : Network Address) (probe : GitRootProbe) (c : PodmanContainer)
    (row : HealthRow) : Prop :=
  row.session = record probe c .managed ∧ ∃ runtime endpoint,
    row.session.runtimeKind = some runtime ∧ row.session.attachEndpoint = some endpoint ∧
      row.health = check net runtime endpoint

/-- A session that runs has a runtime and an endpoint. -/
theorem endpoint_of_running (hrun : (record probe c .managed).status = .running) :
    ∃ runtime endpoint, (record probe c .managed).runtimeKind = some runtime ∧
      (record probe c .managed).attachEndpoint = some endpoint := by
  obtain ⟨accepted, hok, -, hendpoint, -⟩ :=
    @prepareConnectSession_of_running c.listed c.inspected .managed probe demoWorkspace hrun
  unfold prepareConnectSession at hok
  obtain ⟨_, -, hok⟩ := bind_eq_ok.1 hok
  obtain ⟨runtime, hruntime, -⟩ := bind_eq_ok.1 hok
  refine ⟨runtime, accepted.endpoint, ?_, hendpoint⟩
  change orFailure (record probe c .managed).runtimeKind _ _ _ = _ at hruntime
  rcases hkind : (record probe c .managed).runtimeKind with _ | kind
  · rw [hkind] at hruntime
    cases hruntime
  · rw [hkind] at hruntime
    cases hruntime
    rfl

/-- So its row is that of a probe. -/
theorem isProbed_of_running (hrun : (record probe c .managed).status = .running) :
    IsProbed net probe c row ↔ row = healthRow net (record probe c .managed) := by
  obtain ⟨runtime, endpoint, hruntime, hendpoint⟩ := endpoint_of_running hrun
  have hhealth : (healthRow net (record probe c .managed)).health = check net runtime endpoint := by
    rw [healthRow, hruntime, hendpoint]
  obtain ⟨session, health⟩ := row
  constructor
  · rintro ⟨rfl, runtime', endpoint', hruntime', hendpoint', hcheck⟩
    rw [hruntime] at hruntime'
    rw [hendpoint] at hendpoint'
    cases hruntime'
    cases hendpoint'
    have hcheck : health = _ := hcheck
    rw [hcheck, ← hhealth]
    rfl
  · intro hrow
    rw [hrow]
    exact ⟨rfl, runtime, endpoint, hruntime, hendpoint, hhealth⟩

instance : Std.TransCmp compareSessionsByIdentity :=
  inferInstanceAs (Std.TransCmp (compareLex _ _))

/-- The rows come in the order of their roots, and of their names within a root. -/
theorem pairwise_healthRows (sessions : List SessionRecord) :
    (healthRows net sessions).Pairwise fun a b =>
      (compareSessionsByIdentity a.session b.session).isLE = true := by
  have hsorted : (sortSessionRefsByIdentity sessions).Pairwise fun a b =>
      (compareSessionsByIdentity a b).isLE = true := by
    refine List.pairwise_mergeSort (fun a b c => Std.TransCmp.isLE_trans) (fun a b => ?_) sessions
    rw [@Std.OrientedCmp.eq_swap _ compareSessionsByIdentity _ b a]
    cases compareSessionsByIdentity a b <;> rfl
  exact List.pairwise_map.2 hsorted

theorem perm_healthRows (sessions : List SessionRecord) :
    (healthRows net sessions).Perm (sessions.map (healthRow net)) :=
  (List.mergeSort_perm _ _).map _

theorem health_eq_ok {target : Option String} {rows : List HealthRow} :
    health net host probe s target = .ok rows ↔ ∃ plan sessions,
      HealthSessionTargetPlan.fromTarget host target = .ok plan ∧
        plan.selectSessions (managedSessions probe s) = .ok sessions ∧
          rows = healthRows net sessions := by
  unfold health
  rw [discovered_managed, bind_eq_ok]
  constructor
  · rintro ⟨_, ⟨⟩, h⟩
    obtain ⟨plan, hplan, h⟩ := bind_eq_ok.1 h
    obtain ⟨sessions, hsessions, h⟩ := bind_eq_ok.1 h
    exact ⟨plan, sessions, hplan, hsessions, (Except.ok.inj h).symm⟩
  · rintro ⟨plan, sessions, hplan, hsessions, rfl⟩
    exact ⟨_, rfl, bind_eq_ok.2 ⟨plan, hplan, bind_eq_ok.2 ⟨sessions, hsessions, rfl⟩⟩⟩

theorem ne_runningSessions {target : String} {plan : HealthSessionTargetPlan}
    (h : HealthSessionTargetPlan.fromTarget host (some target) = .ok plan) :
    plan ≠ .runningSessions := by
  simp only [HealthSessionTargetPlan.fromTarget] at h
  split_ifs at h
  · rcases hw : resolveWorkspaceIdentity host (.utf8 ⟨target⟩) with e | w
    · rw [hw] at h
      cases h
    · rw [hw] at h
      cases h
      simp
  · cases h
    simp

/-- **The rows of `health`.** Without a target they are the managed sessions that run alone, each
with the answer of its server. A target prints the row of the one managed container that it means,
if that runs alone, and else fails. For a directory this is the session that `connect` accepts,
where the two labels of the root agree. The answer is healthy when one address of the endpoint gives
a response that the runtime counts as such. -/
theorem health_exact {Address : Type} (net : Network Address) (host : Host) (probe : GitRootProbe)
    (s : PodmanState) :
    (∃ rows, health net host probe s none = .ok rows ∧
      (rows.Pairwise fun a b => (compareSessionsByIdentity a.session b.session).isLE = true) ∧
      (rows.map fun row => row.session.containerId).Nodup ∧
      ∀ row, row ∈ rows ↔ ∃ c, ServesAlone probe s c ∧ IsProbed net probe c row) ∧
    (∀ target rows, health net host probe s (some target) = .ok rows ↔
      ∃ plan c row, HealthSessionTargetPlan.fromTarget host (some target) = .ok plan ∧
        (managedContainers s).filter (fun c => plan.isMeant (record probe c .managed)) = [c] ∧
        ServesAlone probe s c ∧ IsProbed net probe c row ∧ rows = [row]) ∧
    (∀ target workspace session, host.exists_ (.utf8 ⟨target⟩) = true →
      resolveWorkspaceIdentity host (.utf8 ⟨target⟩) = .ok workspace →
      LabelsAgree probe s workspace.canonicalGitRoot →
        ((∃ row, health net host probe s (some target) = .ok [row] ∧ row.session = session) ↔
          ∃ accepted, connectSession s probe workspace = .ok accepted ∧
            accepted.session = session)) ∧
    ∀ runtime endpoint, check net runtime endpoint = .healthy ↔
      ∃ addresses, net.toSocketAddrs endpoint.hostIp endpoint.hostPort = some addresses ∧
        ∃ address ∈ addresses, ∃ connection, net.connectTimeout address = some connection ∧
          AnswersHealthy net runtime endpoint connection := by
  refine ⟨?_, fun target rows => ?_, fun target workspace session hexists hworkspace hagree => ?_,
    fun _ _ => check_eq_healthy⟩
  · obtain ⟨l, hnodup, hl, hselected⟩ := selectSessions_running probe s
    have hperm := @perm_healthRows _ net (l.map fun c => record probe c .managed)
    refine ⟨_, health_eq_ok.2 ⟨_, _, rfl, hselected, rfl⟩, pairwise_healthRows _, ?_, fun row => ?_⟩
    · rw [(hperm.map _).nodup_iff, List.map_map, List.map_map]
      refine hnodup.map_on fun a ha b hb hid => ?_
      have hida : a.id = b.id := hid
      refine PodmanState.eq_of_mem_refs (mem_managedContainers.1 ((hl a).1 ha).mem).1
        (mem_managedContainers.1 ((hl b).1 hb).mem).1 a.id_mem_refs ?_
      rw [hida]
      exact b.id_mem_refs
    · rw [hperm.mem_iff, List.map_map, List.mem_map]
      constructor
      · rintro ⟨c, hc, rfl⟩
        have halone := (hl c).1 hc
        exact ⟨c, halone, (isProbed_of_running halone.running).2 rfl⟩
      · rintro ⟨c, halone, hprobed⟩
        exact ⟨c, (hl c).2 halone, ((isProbed_of_running halone.running).1 hprobed).symm⟩
  · rw [health_eq_ok]
    constructor
    · rintro ⟨plan, sessions, hplan, hsessions, rfl⟩
      obtain ⟨c, hone, halone, rfl⟩ :=
        (selectSessions_target (ne_runningSessions hplan)).1 hsessions
      refine ⟨plan, c, healthRow net (record probe c .managed), hplan, hone, halone,
        (isProbed_of_running halone.running).2 rfl, ?_⟩
      rw [healthRows, sortSessionRefsByIdentity, List.mergeSort_singleton]
      rfl
    · rintro ⟨plan, c, row, hplan, hone, halone, hprobed, rfl⟩
      refine ⟨plan, _, hplan,
        (selectSessions_target (ne_runningSessions hplan)).2 ⟨c, hone, halone, rfl⟩, ?_⟩
      rw [healthRows, sortSessionRefsByIdentity, List.mergeSort_singleton,
        (isProbed_of_running halone.running).1 hprobed]
      rfl
  · have hplan : HealthSessionTargetPlan.fromTarget host (some target) =
        .ok (.workspace workspace.canonicalGitRoot) := by
      simp only [HealthSessionTargetPlan.fromTarget, hexists, if_true, hworkspace]
      rfl
    rw [connectSession_iff hagree]
    constructor
    · rintro ⟨row, hrow, rfl⟩
      obtain ⟨plan, sessions, hplan', hsessions, hrows⟩ := health_eq_ok.1 hrow
      rw [hplan] at hplan'
      cases hplan'
      rw [hsessions]
      have hperm := @perm_healthRows _ net sessions
      rw [← hrows] at hperm
      obtain ⟨session, hone, hrow⟩ :=
        List.map_eq_singleton_iff.1 (List.perm_singleton.1 hperm.symm)
      rw [hone, ← hrow]
      rfl
    · intro hsessions
      refine ⟨healthRow net session, health_eq_ok.2 ⟨_, _, hplan, hsessions, ?_⟩, rfl⟩
      rw [healthRows, sortSessionRefsByIdentity, List.mergeSort_singleton]
      rfl

/-- One address, where nothing listens. -/
def demoNetwork : Network Unit where
  toSocketAddrs _ _ := some [()]
  connectTimeout _ := none
  healthyFlag _ := none

/-- The managed session of the demo state is probed by `health` as `connect` would accept it. -/
theorem health_exact_demo : ∃ row,
    health demoNetwork RoundTrip.demoHost demoProbe demoState (some "/workspace/demo") = .ok [row] ∧
      row.session.containerId = "managed" ∧ row.health = .unhealthy "unreachable" := by
  have hkind : ((demoContainer "managed" (managedSessionLabels demoLabelInput)).kind ==
    some .managed) = true := by decide +kernel
  have hother : ((demoContainer "transient" (transientRunLabels demoLabelInput)).kind ==
    some .managed) = false := by decide +kernel
  have hcontainers : demoState.containers =
      [demoContainer "managed" (managedSessionLabels demoLabelInput),
        demoContainer "transient" (transientRunLabels demoLabelInput)] := rfl
  have hmanaged : managedContainers demoState =
      [demoContainer "managed" (managedSessionLabels demoLabelInput)] := by
    rw [managedContainers, hcontainers]
    simp only [List.filter_cons, hkind, hother, if_true, List.filter_nil]
    rfl
  have hroot : ((record demoProbe (demoContainer "managed" (managedSessionLabels demoLabelInput))
    .managed).canonicalGitRoot == some demoRoot) = true := by decide +kernel
  have hhash : (record demoProbe (demoContainer "managed" (managedSessionLabels demoLabelInput))
    .managed).gitRootHash = some (gitRootHash12 demoRoot) := by decide +kernel
  have hrun : (record demoProbe (demoContainer "managed" (managedSessionLabels demoLabelInput))
    .managed).status = .running := by decide +kernel
  have hagree : LabelsAgree demoProbe demoState demoWorkspace.canonicalGitRoot := by
    intro c hc
    rw [hmanaged, List.mem_singleton] at hc
    rw [hc]
    exact iff_of_true hroot hhash
  obtain ⟨hcol, hview⟩ := connectView_eq hagree
  rw [hmanaged] at hview
  have hview := hview.trans (List.filter_cons_of_pos hroot)
  obtain ⟨accepted, hok, hsession⟩ := connectSession_of_single hcol hview hrun
  obtain ⟨-, htarget, hconnect, -⟩ :=
    health_exact demoNetwork RoundTrip.demoHost demoProbe demoState
  obtain ⟨row, hrow, hshown⟩ := (hconnect "/workspace/demo" demoWorkspace _ rfl
    RoundTrip.resolve_demo hagree).2 ⟨accepted, hok, rfl⟩
  refine ⟨row, hrow, by rw [hshown, hsession]; rfl, ?_⟩
  obtain ⟨_, _, row', -, -, -, ⟨-, _, _, -, -, hhealth⟩, hrows⟩ := (htarget _ _).1 hrow
  obtain rfl : row = row' := (List.cons.inj hrows).1
  rw [hhealth]
  rfl

end

end Agentbox.Commands.Health
