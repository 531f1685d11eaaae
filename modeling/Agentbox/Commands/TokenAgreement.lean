import Agentbox.Commands.LockProtocol
import Agentbox.Commands.RestartPreserves

/-! # The token of a Codex server

A Codex server is told the digest of its token, and the token itself is in a file that is named for
the root: two stores that different commands change at different moments. In a run of commands, one
at a time, in which no restart writes a token and then starts no server, the file of a root has the
token that the server of the root accepts, and `connect` gives the client that token. -/

namespace Agentbox.Commands.TokenAgreement

open Agentbox.Base.Text Agentbox.Base.Path Agentbox.Base.Digest Agentbox.Base.Errors
  Agentbox.Config.Limits Agentbox.Files.Snapshot Agentbox.Lib.Program Agentbox.Lib.Transition
  Agentbox.Metadata.Labels
  Agentbox.Podman.Model Agentbox.Podman.State Agentbox.Runtime.Kind Agentbox.Runtime.Spec
  Agentbox.Workspace.Identity Agentbox.Session.Record Agentbox.Session.Discovery
  Agentbox.Session.Collected Agentbox.Session.Views Agentbox.Session.Claimants
  Agentbox.Session.Selection Agentbox.Session.Connectable Agentbox.Session.Restartable
  Agentbox.Session.Target Agentbox.Session.TargetView Agentbox.Session.RootContainers
  Agentbox.Commands.HostCalls Agentbox.Commands.WorkspaceFlow Agentbox.Commands.CodexAttachAuth
  Agentbox.Commands.RuntimeCommand Agentbox.Commands.ContainerCleanup
  Agentbox.Commands.ContainerLaunch Agentbox.Commands.DetachedServer Agentbox.Commands.Connect
  Agentbox.Commands.Start Agentbox.Commands.Restart Agentbox.Commands.Stop
  Agentbox.Commands.LaunchLabels Agentbox.Commands.RoundTrip Agentbox.Commands.Quiet
  Agentbox.Commands.World Agentbox.Commands.Obliging Agentbox.Commands.RestartSafety
  Agentbox.Commands.SingleServer Agentbox.Commands.RestartPreserves
  Agentbox.Commands.LockProtocol Agentbox.DevEnv.Environment
open Agentbox.Session.ScopedDiscovery (demoRoot discovered)
open Agentbox.Session.Status (healthy_of_not_isFailed)
open Agentbox.Session.ConnectView (demoWorkspace connectSession connectSession_ok mem_connectView
  root_of_belongs)

/-! ### Tokens and servers -/

/-- What `generate` makes: the hexadecimal spelling of 32 bytes. -/
def IsToken (value : String) : Prop :=
  ∃ bytes : List UInt8, bytes.length = 32 ∧ value = hexLower bytes

/-- The command line is that of a server that accepts the clients which have the token. -/
def Accepts (argv : List String) (token : String) : Prop :=
  ∃ (devEnv : DevEnvironment) (serverArgs : List String),
    argv = devEnv.wrapArgv (RuntimeKind.codex.serverCommand ++ ["--ws-auth", "capability-token",
      WS_TOKEN_SHA256_FLAG, sha256Hex token.toUTF8.toList] ++ serverArgs)

def IsManagedCodex (c : PodmanContainer) : Prop :=
  c.kind = some .managed ∧ (SessionMetadata.mk c.labels).runtimeKind = some .codex

/-- A container that agentbox started for the root. -/
structure StartedFor (root : Utf8Path) (c : PodmanContainer) : Prop where
  isNormal : root.IsNormal
  rootOf : rootOf c = some root
  hashAgrees : hashAgrees root c = true
  names : c.names = some [(workspaceAt root).containerName]

/-- The token file of the digest has a token that the command line accepts. -/
def HasToken (w : WorldState) (digest64 : String) (argv : List String) : Prop :=
  ∃ value, w.tokens digest64 = some value ∧ IsToken value ∧ Accepts argv value

/-- Every directory is in one of the roots. -/
def Within (roots : Set Utf8Path) (host : Host) : Prop :=
  ∀ directory workspace, resolveWorkspaceIdentity host directory = .ok workspace →
    workspace.canonicalGitRoot ∈ roots

/-- The containers of agentbox are those that it started for the roots, and the token files agree
with the managed Codex servers, but for those of the roots that `but` says. -/
structure AgreeBut (roots : Set Utf8Path) (but : Utf8Path → Prop) (w : WorldState) : Prop where
  within : Within roots w.host
  started : ∀ c ∈ w.podman.containers, c.kind.isSome = true → ∃ root ∈ roots, StartedFor root c
  agrees : ∀ c ∈ w.podman.containers, IsManagedCodex c → ∀ root, rootOf c = some root →
    ¬ but root → HasToken w (gitRootDigest64 root) c.command

/-- The token files agree with the managed Codex servers. -/
def Agree (roots : Set Utf8Path) (w : WorldState) : Prop := AgreeBut roots (fun _ => False) w

/-- Agentbox has no container for the root. -/
def Vacant (root : Utf8Path) (w : WorldState) : Prop :=
  ∀ c ∈ w.podman.containers, c.kind.isSome = true → rootOf c ≠ some root

/-- Agentbox has no container that it had not, and the tokens are as they were. -/
structure Fewer (w w' : WorldState) : Prop where
  tokens : w'.tokens = w.tokens
  containers : ∀ c' ∈ w'.podman.containers, c'.kind.isSome = true → ∃ c ∈ w.podman.containers,
    c'.names = c.names ∧ c'.labels = c.labels ∧ c'.command = c.command

structure Shrinks (w w' : WorldState) : Prop extends Fewer w w' where
  host : w'.host = w.host

variable {roots : Set Utf8Path} {but : Utf8Path → Prop} {root : Utf8Path} {w w' w1 : WorldState}
  {c c' : PodmanContainer} {host : Host} {session : SessionRecord} {workspace : WorkspaceIdentity}
  {request : RuntimeLaunchRequest} {prep : RuntimeLaunchPreparation}

/-- The kind, the root and the runtime of a container are those of its labels. -/
theorem labels_tell (h : c'.labels = c.labels) : c'.kind = c.kind ∧ rootOf c' = rootOf c ∧
    (∀ root, hashAgrees root c' = hashAgrees root c) ∧ (IsManagedCodex c' ↔ IsManagedCodex c) := by
  have hkind : c'.kind = c.kind := by rw [PodmanContainer.kind, PodmanContainer.kind, h]
  refine ⟨hkind, ?_, fun root => ?_, ?_⟩
  · rw [rootOf, rootOf, h]
  · rw [hashAgrees, hashAgrees, h]
  · rw [IsManagedCodex, IsManagedCodex, hkind, h]

theorem Shrinks.refl (w : WorldState) : Shrinks w w :=
  ⟨⟨rfl, fun c hc _ => ⟨c, hc, rfl, rfl, rfl⟩⟩, rfl⟩

theorem Shrinks.trans (h : Shrinks w w1) (h' : Shrinks w1 w') : Shrinks w w' where
  host := h'.host.trans h.host
  tokens := h'.tokens.trans h.tokens
  containers c' hc' hkind := by
    obtain ⟨c1, hc1, hnames1, hlabels1, hcommand1⟩ := h'.containers c' hc' hkind
    obtain ⟨c, hc, hnames, hlabels, hcommand⟩ :=
      h.containers c1 hc1 ((labels_tell hlabels1).1 ▸ hkind)
    exact ⟨c, hc, hnames1.trans hnames, hlabels1.trans hlabels, hcommand1.trans hcommand⟩

theorem isSome_kind (h : IsManagedCodex c) : c.kind.isSome = true := by
  rw [h.1]
  rfl

theorem AgreeBut.of_fewer (h : AgreeBut roots but w) (hw : Fewer w w')
    (hwithin : Within roots w'.host) : AgreeBut roots but w' where
  within := hwithin
  started c' hc' hkind := by
    obtain ⟨c, hc, hnames, hlabels, -⟩ := hw.containers c' hc' hkind
    obtain ⟨hsame, hroot, hhash, -⟩ := labels_tell hlabels
    obtain ⟨root, hmem, hstarted⟩ := h.started c hc (hsame ▸ hkind)
    exact ⟨root, hmem, hstarted.isNormal, hroot.trans hstarted.rootOf,
      (hhash root).trans hstarted.hashAgrees, hnames.trans hstarted.names⟩
  agrees c' hc' hcodex root hroot hbut := by
    obtain ⟨c, hc, -, hlabels, hcommand⟩ := hw.containers c' hc' (isSome_kind hcodex)
    obtain ⟨-, hsame, -, hiff⟩ := labels_tell hlabels
    obtain ⟨value, hvalue, htoken, haccepts⟩ :=
      h.agrees c hc (hiff.1 hcodex) root (hsame ▸ hroot) hbut
    exact ⟨value, hw.tokens ▸ hvalue, htoken, hcommand ▸ haccepts⟩

theorem AgreeBut.of_shrinks (h : AgreeBut roots but w) (hw : Shrinks w w') :
    AgreeBut roots but w' := h.of_fewer hw.toFewer (hw.host ▸ h.within)

theorem Agree.agreeBut (h : Agree roots w) : AgreeBut roots but w :=
  { h with agrees := fun c hc hcodex root hroot _ => h.agrees c hc hcodex root hroot id }

/-- Where agentbox has no container for a root, nothing has to agree. -/
theorem agree_of_vacant (h : AgreeBut roots (· = root) w) (hvacant : Vacant root w) :
    Agree roots w := by
  refine { h with agrees := fun c hc hcodex root' hroot _ => h.agrees c hc hcodex root' hroot ?_ }
  rintro rfl
  exact hvacant c hc (isSome_kind hcodex) hroot

/-- The token file of a root is no other root's. -/
theorem AgreeBut.setToken (hinj : Set.InjOn gitRootDigest64 roots) (hmem : root ∈ roots)
    (h : AgreeBut roots (· = root) w) (value : Option String) :
    AgreeBut roots (· = root) (w.setToken (gitRootDigest64 root) value) where
  within := h.within
  started := h.started
  agrees c hc hcodex root' hroot hne := by
    obtain ⟨value', hvalue, htoken, haccepts⟩ := h.agrees c hc hcodex root' hroot hne
    obtain ⟨own, hown, hstarted⟩ := h.started c hc (isSome_kind hcodex)
    obtain rfl : own = root' := Option.some.inj (hstarted.rootOf.symm.trans hroot)
    refine ⟨value', ?_, htoken, haccepts⟩
    have hdigest : gitRootDigest64 own ≠ gitRootDigest64 root := fun heq => hne (hinj hown hmem heq)
    exact (Function.update_of_ne hdigest _ _).trans hvalue

theorem vacant_of_alone (h : AgreeBut roots but w) (halone : Alone root w.podman) :
    Vacant root w := by
  intro c hc hkind hroot
  obtain ⟨root', -, hstarted⟩ := h.started c hc hkind
  obtain rfl : root' = root := Option.some.inj (hstarted.rootOf.symm.trans hroot)
  have hclaims : isClaimant root' c = true := by
    rw [isClaimant_iff, hroot, some_beq_some, Utf8Path.beq_iff]
    exact ⟨hkind, rfl, hstarted.hashAgrees⟩
  rw [halone c hc] at hclaims
  cases hclaims

theorem vacant_of_gone (h : AgreeBut roots but w)
    (hgone : w.podman.find (workspaceAt root).containerName = none) : Vacant root w := by
  intro c hc hkind hroot
  obtain ⟨root', -, hstarted⟩ := h.started c hc hkind
  obtain rfl : root' = root := Option.some.inj (hstarted.rootOf.symm.trans hroot)
  refine PodmanState.find_eq_none.1 hgone c hc ?_
  rw [PodmanContainer.refs, hstarted.names]
  exact List.mem_cons_of_mem _ (List.mem_singleton_self _)

/-! ### Calls -/

variable {α β : Type} {t : List (Event HostOps WorldState)} {digest64 : String}

/-- The call starts no container and changes no token. -/
def isTame : HostOp → Bool
  | .runDetached _ _ | .writeToken _ _ | .removeToken _ => false
  | _ => true

/-- Only the token of the digest may be another one. -/
def Touches (digest64 : String) (w w' : WorldState) : Prop :=
  w' = w ∨ ∃ value, w' = w.setToken digest64 value

theorem isTame_of_isQuiet : ∀ {o : HostOp}, isQuiet o = true → isTame o = true
  | o, h => by cases o <;> first | rfl | cases h

theorem serves_tame {o : HostOp} {r : o.Ret} (ho : isTame o = true) (h : serves w o r w') :
    Shrinks w w' := by
  by_cases hq : isQuiet o = true
  · rw [serves_quiet hq h]
    exact .refl w
  · cases o with
    | stopIgnore name =>
      obtain ⟨s, hstops, rfl⟩ := h
      refine ⟨⟨rfl, fun c' hc' _ => ?_⟩, rfl⟩
      obtain hold | ⟨c, hc, -, rfl⟩ := hstops.old c' hc'
      · exact ⟨c', hold, rfl, rfl, rfl⟩
      · exact ⟨c, hc, rfl, rfl, rfl⟩
    | lockGuard digest64 =>
      obtain ⟨-, rfl⟩ | ⟨-, rfl⟩ := h
      · exact .refl _
      · exact ⟨⟨rfl, fun c hc _ => ⟨c, hc, rfl, rfl, rfl⟩⟩, rfl⟩
    | unlock digest64 =>
      obtain rfl : w' = _ := h
      exact ⟨⟨rfl, fun c hc _ => ⟨c, hc, rfl, rfl, rfl⟩⟩, rfl⟩
    | runDetached _ _ | writeToken _ _ | removeToken _ => cases ho
    | _ => exact absurd rfl hq

theorem exec_tame {p : Command α} {res : Except Error α}
    (h : Exec (worldMachine Eq) p w t w' res) (ht : ∀ e ∈ t, isTame e.op = true) :
    Shrinks w w' := by
  refine h.keeps (I := Shrinks w) (.refl w) fun e he hpre => ?_
  obtain ⟨w2, hserves, hsame⟩ := h.step_of_mem he
  exact hpre.trans (hsame ▸ serves_tame (ht e he) hserves)

theorem exec_onlyTame {p : Command α} {res : Except Error α}
    (hp : Only (S := HostOps) (fun o => isTame o = true) p)
    (h : Exec (worldMachine Eq) p w t w' res) : Shrinks w w' :=
  exec_tame h (h.of_always hp).2

/-- What only reads leaves the world as it is. -/
theorem exec_still {p : Command α} {res : Except Error α} (hp : IsQuiet p)
    (h : Exec (worldMachine Eq) p w t w' res) : w' = w := by
  refine h.keeps (I := fun w1 => w1 = w) rfl fun e he hpre => ?_
  obtain ⟨w2, hserves, hsame⟩ := h.step_of_mem he
  rw [← hsame, serves_quiet ((h.of_always hp).2 e he) hserves, hpre]

theorem exec_bind_still {p : Command α} {f : α → Command β} {res : Except Error β} (hp : IsQuiet p)
    (h : Exec (worldMachine Eq) (p.bind f) w t w' res) :
    (w' = w ∧ ∀ b, res ≠ .ok b) ∨ ∃ a t1 t2, t = t1 ++ t2 ∧
      Exec (worldMachine Eq) p w t1 w (.ok a) ∧ Exec (worldMachine Eq) (f a) w t2 w' res := by
  obtain ⟨e, rfl, h1⟩ | ⟨a, w1, t1, t2, rfl, h1, h2⟩ := exec_bind.1 h
  · refine .inl ⟨exec_still hp h1, fun b hb => ?_⟩
    cases hb
  · obtain rfl := exec_still hp h1
    exact .inr ⟨a, t1, t2, rfl, h1, h2⟩

/-- A call that the first part never makes is one of the second part. -/
theorem exec_bind_of_mem (calls : HostOp → Bool) {p : Command α} {f : α → Command β}
    {res : Except Error β} (hp : Only (S := HostOps) (fun o => calls o = false) p)
    (h : Exec (worldMachine Eq) (p.bind f) w t w' res) {e : Event HostOps WorldState} (he : e ∈ t)
    (hcalls : calls e.op = true) :
    ∃ a w1 t1 t2, Exec (worldMachine Eq) p w t1 w1 (.ok a) ∧
      Exec (worldMachine Eq) (f a) w1 t2 w' res ∧ e ∈ t2 := by
  have hnot : ∀ {w1 : WorldState} {t1 : List (Event HostOps WorldState)} {r : Except Error α},
      Exec (worldMachine Eq) p w t1 w1 r → e ∉ t1 := by
    intro w1 t1 r h1 hmem
    rw [(h1.of_always hp).2 e hmem] at hcalls
    cases hcalls
  obtain ⟨_, -, h1⟩ | ⟨a, w1, t1, t2, rfl, h1, h2⟩ := exec_bind.1 h
  · exact absurd he (hnot h1)
  · exact ⟨a, w1, t1, t2, h1, h2, (List.mem_append.1 he).resolve_left (hnot h1)⟩

/-! ### Preparing a launch -/

/-- A managed Codex server is given a token that is in the file of the digest. -/
def Stored (digest64 : String) (w : WorldState) (token : Option CodexAttachToken) : Prop :=
  ∃ generated : CodexAttachToken, token = some generated ∧ IsToken generated.value ∧
    w.tokens digest64 = some generated.value

theorem exec_generate {res : Except Error CodexAttachToken}
    (h : Exec (worldMachine Eq) CodexAttachToken.generate w t w' res) :
    w' = w ∧ ∀ token, res = .ok token → IsToken token.value := by
  obtain ⟨r, w1, t1, -, ⟨w2, ⟨htells, hsame⟩, hothers⟩, hrest⟩ :=
    (exec_call_bind (S := HostOps) (o := .generateToken) fun r => r).1 h
  subst hothers
  subst hsame
  obtain ⟨value, hr, h1⟩ | ⟨e, -, -, rfl, rfl⟩ := hrest
  · obtain ⟨-, rfl, rfl⟩ := exec_done.1 h1
    refine ⟨rfl, fun token htoken => ?_⟩
    cases htoken
    exact htells value hr
  · refine ⟨rfl, fun token htoken => ?_⟩
    cases htoken

theorem exec_createManaged {res : Except Error CodexAttachToken}
    (h : Exec (worldMachine Eq) (createManaged workspace) w t w' res) :
    Touches workspace.digest64 w w' ∧
      ∀ token, res = .ok token → Stored workspace.digest64 w' (some token) := by
  obtain ⟨e, rfl, h1⟩ | ⟨token, w1, t1, t2, -, h1, h2⟩ := exec_bind.1 h
  · refine ⟨.inl (exec_generate h1).1, fun token htoken => ?_⟩
    cases htoken
  obtain ⟨rfl, htoken⟩ := exec_generate h1
  obtain ⟨r, w2, t3, -, ⟨w3, hserves, hothers⟩, hrest⟩ := (exec_call_bind (S := HostOps)
    (o := .writeToken workspace.digest64 token.value) fun r => r).1 h2
  subst hothers
  obtain ⟨hr, rfl⟩ | ⟨⟨e, hr⟩, value, rfl⟩ := hserves
  · obtain ⟨-, -, h3⟩ | ⟨e, he, -⟩ := hrest
    · obtain ⟨-, rfl, rfl⟩ := exec_done.1 h3
      refine ⟨.inr ⟨_, rfl⟩, fun token' htoken' => ?_⟩
      cases htoken'
      exact ⟨token, rfl, htoken token rfl, Function.update_self _ _ _⟩
    · rw [hr] at he
      cases he
  · obtain ⟨a, ha, -⟩ | ⟨e', -, -, rfl, rfl⟩ := hrest
    · rw [hr] at ha
      cases ha
    · refine ⟨.inr ⟨value, rfl⟩, fun token' htoken' => ?_⟩
      cases htoken'

theorem exec_prepareToken {runtime : RuntimeKind} {runMode : RuntimeRunMode}
    {res : Except Error (Option CodexAttachToken)}
    (h : Exec (worldMachine Eq) (prepareCodexAttachToken runtime runMode workspace) w t w' res) :
    Touches workspace.digest64 w w' ∧ ∀ token, res = .ok token → runtime = .codex →
      runMode = .managedSession → Stored workspace.digest64 w' token := by
  unfold prepareCodexAttachToken at h
  split at h
  · obtain ⟨-, rfl, -⟩ := exec_done.1 h
    refine ⟨.inl rfl, fun _ _ hruntime => ?_⟩
    cases hruntime
  · obtain ⟨e, rfl, h1⟩ | ⟨token, w1, t1, t2, -, h1, h2⟩ := exec_bind.1 h
    · refine ⟨(exec_createManaged h1).1, fun token htoken => ?_⟩
      cases htoken
    · obtain ⟨-, rfl, rfl⟩ := exec_done.1 h2
      obtain ⟨htouches, hstored⟩ := exec_createManaged h1
      refine ⟨htouches, fun token' htoken' _ _ => ?_⟩
      cases htoken'
      exact hstored token rfl
  · obtain ⟨e, rfl, h1⟩ | ⟨token, w1, t1, t2, -, h1, h2⟩ := exec_bind.1 h
    · refine ⟨.inl (exec_generate h1).1, fun token htoken => ?_⟩
      cases htoken
    · obtain ⟨-, rfl, rfl⟩ := exec_done.1 h2
      refine ⟨.inl (exec_generate h1).1, fun _ _ _ hmode => ?_⟩
      cases hmode
  · obtain ⟨-, rfl, -⟩ := exec_done.1 h
    refine ⟨.inl rfl, fun _ _ _ hmode => ?_⟩
    cases hmode

/-- A preparation changes at most the token of its root, and a managed Codex server that is prepared
is given the token of the file. -/
theorem exec_prepareRuntimeLaunch {res : Except Error RuntimeLaunchPreparation}
    (h : Exec (worldMachine Eq) (prepareRuntimeLaunch request) w t w' res) :
    Touches request.workspace.digest64 w w' ∧ ∀ prep, res = .ok prep → IsPrepared request prep ∧
      (request.runtime = .codex → request.policy.runMode = .managedSession →
        Stored request.workspace.digest64 w' prep.codexAttachToken) := by
  have hprepared : ∀ prep, res = .ok prep → IsPrepared request prep :=
    (h.of_always (isPrepared_always request)).1
  obtain ⟨rfl, hno⟩ | ⟨preparation, t1, t2, -, -, h2⟩ :=
    exec_bind_still (reading_prepareContainerLaunchForWorkspace request).quiet h
  · exact ⟨.inl rfl, fun prep hprep => absurd hprep (hno prep)⟩
  obtain ⟨e, rfl, h3⟩ | ⟨token, w1, t3, t4, -, h3, h4⟩ := exec_bind.1 h2
  · refine ⟨(exec_prepareToken h3).1, fun prep hprep => ?_⟩
    cases hprep
  obtain ⟨htouches, hstored⟩ := exec_prepareToken h3
  obtain ⟨rfl, hno⟩ | ⟨invocation, t5, t6, -, -, h6⟩ := exec_bind_still (quiet_ofExcept _) h4
  · exact ⟨htouches, fun prep hprep => absurd hprep (hno prep)⟩
  obtain ⟨rfl, hno⟩ | ⟨passthrough, t7, t8, -, -, h8⟩ :=
    exec_bind_still (reading_detectPassthrough _).quiet h6
  · exact ⟨htouches, fun prep hprep => absurd hprep (hno prep)⟩
  obtain ⟨-, rfl, rfl⟩ := exec_done.1 h8
  refine ⟨htouches, fun prep hprep => ⟨hprepared prep hprep, fun hruntime hmode => ?_⟩⟩
  cases hprep
  exact hstored token rfl hruntime hmode

theorem accepts_of_isPrepared (h : IsPrepared request prep) (hruntime : request.runtime = .codex)
    {token : CodexAttachToken} (htoken : prep.codexAttachToken = some token) :
    Accepts prep.runSpec.create.command token.value := by
  obtain ⟨preparation, invocation, passthrough, hcommand, hspec⟩ := h
  rw [hruntime, htoken, serverRuntimeCommand, Except.ok.injEq] at hcommand
  refine ⟨preparation.devEnv, request.serverArgs, ?_⟩
  rw [hspec, (@launchRunSpec_create request preparation invocation passthrough).1, ← hcommand,
    token.sha256_eq]

/-! ### A launch -/

/-- What is prepared for the root may be started: nothing else is there for the root. -/
structure Ready (roots : Set Utf8Path) (root : Utf8Path) (request : RuntimeLaunchRequest)
    (prep : RuntimeLaunchPreparation) (w : WorldState) : Prop where
  resolved : IsResolved request.workspace
  root_eq : request.workspace.canonicalGitRoot = root
  mem : root ∈ roots
  server : request.policy.runMode ≠ .foreground
  prepared : IsPrepared request prep
  hasToken : request.runtime = .codex → request.policy.runMode = .managedSession →
    HasToken w (gitRootDigest64 root) prep.runSpec.create.command
  agrees : AgreeBut roots (· = root) w
  vacant : Vacant root w

theorem hasToken_of_stored (h : Stored digest64 w prep.codexAttachToken)
    (hprep : IsPrepared request prep) (hruntime : request.runtime = .codex) :
    HasToken w digest64 prep.runSpec.create.command := by
  obtain ⟨token, htoken, his, hfile⟩ := h
  exact ⟨token.value, hfile, his, accepts_of_isPrepared hprep hruntime htoken⟩

/-- The container of a launch is one of the root, and accepts the token of the file. -/
theorem Ready.agree_of_runs (h : Ready roots root request prep w) {s' : PodmanState}
    (hruns : Runs w.podman request.workspace.containerName prep.runSpec s') :
    Agree roots (w.setPodman s') := by
  obtain ⟨c0, hrun, hs'⟩ := hruns
  obtain ⟨image, himage⟩ := hrun.labels
  have hlabels : ServerLabels request c0.labels :=
    himage ▸ (h.prepared.serverLabels h.server).union image
  have hroot : rootOf c0 = some root := h.root_eq ▸ canonicalGitRoot_server h.resolved hlabels
  have hhash : requiredLabelValue c0.labels LABEL_GIT_ROOT_HASH = some (gitRootHash12 root) :=
    h.root_eq ▸ gitRootHash_server h.resolved hlabels
  have hstarted : StartedFor root c0 := by
    refine ⟨h.root_eq ▸ h.resolved.gitRoot_isNormal, hroot, ?_, ?_⟩
    · rw [hashAgrees, hhash, Option.all_some, beq_self_eq_true]
    · rw [hrun.names, h.resolved.containerName_eq, h.resolved.hash12_eq, h.root_eq]
      rfl
  have hmem : ∀ c ∈ (w.setPodman s').podman.containers, c ∈ w.podman.containers ∨ c = c0 := by
    intro c hc
    change c ∈ s'.containers at hc
    rwa [hs', List.mem_append, List.mem_singleton] at hc
  refine ⟨h.agrees.within, fun c hc hkind => ?_, fun c hc hcodex root' hroot' _ => ?_⟩
  · obtain hold | rfl := hmem c hc
    · exact h.agrees.started c hold hkind
    · exact ⟨root, h.mem, hstarted⟩
  · obtain hold | rfl := hmem c hc
    · refine h.agrees.agrees c hold hcodex root' hroot' ?_
      rintro rfl
      exact h.vacant c hold (isSome_kind hcodex) hroot'
    · obtain rfl : root = root' := Option.some.inj (hroot.symm.trans hroot')
      have hruntime : request.runtime = .codex :=
        Option.some.inj ((runtimeKind_server h.resolved hlabels).symm.trans hcodex.2)
      have hmode : request.policy.runMode = .managedSession := by
        rcases hmode : request.policy.runMode with _ | _ | _
        · rfl
        · have hkind := (kind_transient hlabels hmode).1.symm.trans hcodex.1
          cases hkind
        · exact absurd hmode h.server
      obtain ⟨value, hvalue, htoken, haccepts⟩ := h.hasToken hruntime hmode
      exact ⟨value, hvalue, htoken, hrun.command ▸ haccepts⟩

/-- **The step lemma of a launch.** What starts the container that is prepared, once, and is tame
otherwise. -/
theorem Ready.agree_of_launch (h : Ready roots root request prep w) {p : Command Unit}
    {commandName : String} {res : Except Error Unit}
    (hp : LaunchesOnce (fun o => isTame o = true) commandName request.workspace.containerName
      prep.runSpec p) (hexec : Exec (worldMachine Eq) p w t w' res) : Agree roots w' := by
  have hagree : Agree roots w := agree_of_vacant h.agrees h.vacant
  obtain ⟨k, rfl, hk⟩ := hp
  obtain ⟨rfl, -⟩ | ⟨_, t1, t2, -, -, h2⟩ :=
    exec_bind_still (reading_installInterrupt commandName).quiet hexec
  · exact hagree
  obtain ⟨r, w1, t3, -, ⟨w2, hserves, hothers⟩, h3⟩ := (exec_attempt_call (S := HostOps)
    (o := .runDetached request.workspace.containerName prep.runSpec) fun r => r).1 h2
  subst hothers
  have hlaunched : Agree roots w2 := by
    obtain ⟨-, rfl⟩ | ⟨s', hruns, rfl⟩ := hserves
    · exact hagree
    · exact h.agree_of_runs hruns
  exact hlaunched.of_shrinks (exec_onlyTame (hk r) h3)

/-! ### Start and run -/

theorem AgreeBut.of_touches (hinj : Set.InjOn gitRootDigest64 roots) (hmem : root ∈ roots)
    (h : AgreeBut roots (· = root) w) (hw : Touches (gitRootDigest64 root) w w') :
    AgreeBut roots (· = root) w' := by
  obtain rfl | ⟨value, rfl⟩ := hw
  · exact h
  · exact h.setToken hinj hmem value

theorem Touches.podman_eq (h : Touches digest64 w w') : w'.podman = w.podman := by
  obtain rfl | ⟨value, rfl⟩ := h
  · rfl
  · rfl

/-- What a launch that requires absence is prepared for is absent. -/
theorem alone_of_prepared {preparation : ContainerLaunchPreparation}
    (hcheck : request.policy.existingCheck = .requireAbsent .agentboxContainers)
    (hheld : w.held = [digest64])
    (h : Exec (worldMachine Eq) (prepareContainerLaunchForWorkspace request) w t w'
      (.ok preparation)) : Alone request.workspace.canonicalGitRoot w.podman := by
  obtain ⟨-, hno⟩ | ⟨preflight, t1, t2, -, -, h2⟩ :=
    exec_bind_still (reading_checkHostPrerequisites _ _).quiet h
  · exact absurd rfl (hno preparation)
  obtain ⟨_, w1, t3, t4, -, h3, -⟩ := exec_bind_ok h2
  rw [hcheck] at h3
  have hlocks : Exec (worldMachine LocksWorld) (ensureRequiredResourcesAbsent request.workspace
      (.requireAbsent .agentboxContainers)) w t3 w1 (.ok _) :=
    h3.mono fun w2 o r w3 hstep => by
      obtain ⟨w4, hserves, rfl⟩ := hstep
      exact ⟨w4, hserves, rfl, fun _ => rfl⟩
  have habsent := @wp_ensureAbsent request.workspace.canonicalGitRoot w.podman w.host w.podman
    (fun _ => false) w digest64 request.workspace ⟨rfl, rfl, hheld⟩
  exact (hlocks.of_wp habsent).1.2 _ rfl

/-- A launch that requires absence keeps the agreement, whatever fails. -/
theorem agree_of_fresh (request : RuntimeLaunchRequest) (hinj : Set.InjOn gitRootDigest64 roots)
    (hresolved : IsResolved request.workspace) (hmem : request.workspace.canonicalGitRoot ∈ roots)
    (hcheck : request.policy.existingCheck = .requireAbsent .agentboxContainers)
    (hserver : request.policy.runMode ≠ .foreground) (hheld : w.held = [digest64])
    {k : RuntimeLaunchPreparation → Command Unit} {res : Except Error Unit}
    (hk : ∀ prep w1 t1, Ready roots request.workspace.canonicalGitRoot request prep w1 →
      Exec (worldMachine Eq) (k prep) w1 t1 w' res → Agree roots w')
    (h : Exec (worldMachine Eq) ((prepareRuntimeLaunch request).bind k) w t w' res)
    (hw : Agree roots w) : Agree roots w' := by
  obtain ⟨rfl, -⟩ | ⟨preparation, t1, t2, -, h1, h2⟩ := exec_bind_still
    (reading_prepareContainerLaunchForWorkspace request).quiet (Prog.bind_assoc _ _ _ ▸ h)
  · exact hw
  have hvacant := vacant_of_alone hw (alone_of_prepared hcheck hheld h1)
  obtain ⟨e, rfl, h3⟩ | ⟨prep, w1, t3, t4, -, h3, h4⟩ := exec_bind.1 h
  · have htouches := (exec_prepareRuntimeLaunch h3).1
    rw [hresolved.digest64_eq] at htouches
    refine agree_of_vacant (hw.agreeBut.of_touches hinj hmem htouches) fun c hc => ?_
    exact hvacant c (htouches.podman_eq ▸ hc)
  · obtain ⟨htouches, hprepared⟩ := exec_prepareRuntimeLaunch h3
    obtain ⟨hprep, hstored⟩ := hprepared prep rfl
    rw [hresolved.digest64_eq] at htouches hstored
    refine hk prep w1 t4 ⟨hresolved, rfl, hmem, hserver, hprep, fun hruntime hmode =>
      hasToken_of_stored (hstored hruntime hmode) hprep hruntime,
      hw.agreeBut.of_touches hinj hmem htouches, fun c hc => ?_⟩ h4
    exact hvacant c (htouches.podman_eq ▸ hc)

section
variable (hinj : Set.InjOn gitRootDigest64 roots) (hresolved : IsResolved workspace)
  (hmem : workspace.canonicalGitRoot ∈ roots) (hheld : w.held = [digest64]) (hw : Agree roots w)
  {limits : ResourceLimits} {res : Except Error Unit}
include hinj hresolved hmem hheld hw

theorem agree_of_startLocked {args : StartArgs}
    (h : Exec (worldMachine Eq) (startLocked args limits workspace) w t w' res) :
    Agree roots w' := by
  refine agree_of_fresh (managedServerLaunchRequest workspace args.runtime args.devEnv
    args.connect args.agentArgs limits) hinj hresolved hmem rfl
    (show RuntimeRunMode.managedSession ≠ .foreground by decide) hheld ?_ h hw
  intro prep w1 t1 hready h1
  obtain ⟨rfl, -⟩ | ⟨existed, t2, t3, -, -, h3⟩ := exec_bind_still (reading_volumeExists _).quiet h1
  · exact agree_of_vacant hready.agrees hready.vacant
  · exact hready.agree_of_launch (launchesOnce_executeManagedServerLaunch
      (fun _ ho => isTame_of_isQuiet (isQuiet_of_isReading ho))
      (only_startPolicy (fun _ ho => isTame_of_isQuiet ho) (fun _ => rfl) existed) _ _) h3

theorem agree_of_runLocked {args : RunArgs}
    (h : Exec (worldMachine Eq) (runLocked args limits workspace) w t w' res) :
    Agree roots w' := by
  refine agree_of_fresh (transientServerLaunchRequest workspace args.runtime args.devEnv
    limits) hinj hresolved hmem rfl (show RuntimeRunMode.transientServer ≠ .foreground by decide)
    hheld ?_ h hw
  intro prep w1 t1 hready h1
  exact hready.agree_of_launch (launchesOnce_transientRun (fun _ ho => isTame_of_isQuiet ho)
    (fun _ => rfl) _ _) h1

end

/-! ### Stopping -/

/-- A container that is verified to be gone is gone. -/
theorem exec_stopAndVerify {name : String} {res : Except Error ManagedContainerCleanup}
    (h : Exec (worldMachine Eq) (ManagedContainerCleanup.stopAndVerify name) w t w' res) :
    Shrinks w w' ∧ ∃ cleanup, res = .ok cleanup ∧
      (cleanup.remainingFailure name = none → w'.podman.find name = none) := by
  have hshrinks := exec_onlyTame (only_stopAndVerify (fun _ ho => isTame_of_isQuiet ho)
    (fun _ => rfl) name) h
  obtain ⟨stopped, w1, t1, -, -, h1⟩ :=
    (exec_attempt_call (S := HostOps) (o := .stopIgnore name) fun r => r).1 h
  obtain ⟨verified, w2, t2, -, ⟨w3, ⟨htells, hsame⟩, hothers⟩, h2⟩ :=
    (exec_attempt_call (S := HostOps) (o := .containerExists name) fun r => r).1 h1
  subst hothers
  subst hsame
  obtain ⟨-, rfl, rfl⟩ := exec_done.1 h2
  refine ⟨hshrinks, _, rfl, fun hnone => ?_⟩
  rw [ManagedContainerCleanup.remainingFailure, Option.map_eq_none_iff] at hnone
  rcases verified with e | _ | _
  · cases hnone
  · have hgone : false = (w'.podman.find name).isSome := htells false rfl
    rwa [eq_comm, Option.isSome_eq_false_iff, Option.isNone_iff_eq_none] at hgone
  · cases hnone

theorem exec_stopExistingSession {res : Except Error Unit}
    (h : Exec (worldMachine Eq) (stopExistingSession session) w t w' res) :
    Shrinks w w' ∧ ∀ u, res = .ok u → w'.podman.find session.containerName = none := by
  obtain ⟨e, rfl, h1⟩ | ⟨cleanup, w1, t1, t2, -, h1, h2⟩ := exec_bind.1 h
  · obtain ⟨-, cleanup, hcleanup, -⟩ := exec_stopAndVerify h1
    cases hcleanup
  obtain ⟨hshrinks, _, hok, hgone⟩ := exec_stopAndVerify h1
  cases hok
  split at h2
  · obtain ⟨-, rfl, rfl⟩ := exec_fail.1 h2
    refine ⟨hshrinks, fun u hu => ?_⟩
    cases hu
  · next hnone =>
    obtain ⟨-, rfl, rfl⟩ := exec_done.1 h2
    exact ⟨hshrinks, fun _ _ => hgone hnone⟩

/-! ### Restart -/

def writes : HostOp → Bool
  | .writeToken _ _ => true
  | _ => false

/-- What writes a token goes on to start a server. -/
def Completes (t : List (Event HostOps WorldState)) : Prop :=
  (∃ e ∈ t, writes e.op = true) → ∃ e ∈ t, launches e.op = true

theorem Completes.of_append {t1 t2 : List (Event HostOps WorldState)}
    (h : Completes (t1 ++ t2)) (hquiet : ∀ e ∈ t1, isQuiet e.op = true) : Completes t2 := by
  rintro ⟨e, he, hwrites⟩
  obtain ⟨e', he', hlaunches⟩ := h ⟨e, List.mem_append_right _ he, hwrites⟩
  refine ⟨e', (List.mem_append.1 he').resolve_left fun hmem => ?_, hlaunches⟩
  rw [launches_of_keepsContainers (keepsContainers_of_isQuiet (hquiet e' hmem))] at hlaunches
  cases hlaunches

/-- A restart calls nothing but what is tame, writes a token or starts a server. -/
theorem only_restartSession (args : RestartArgs) (gitRoot : Utf8Path) (session : SessionRecord) :
    Only (S := HostOps) (fun o => isTame o = true ∨ writes o = true ∨ launches o = true)
      (restartSession args gitRoot session) := by
  have hquiet : ∀ o, isQuiet o = true → isTame o = true ∨ writes o = true ∨ launches o = true :=
    fun o ho => .inl (isTame_of_isQuiet ho)
  refine .bind (only_ofExcept _) fun restart => .bind (only_of_isQuiet hquiet
    (reading_restartLaunchWorkspace _ _ _).quiet) fun workspace => .bind (only_of_isQuiet hquiet
    (reading_restartResourceLimits _ _).quiet) fun limits => .bind (only_prepareRuntimeLaunch hquiet
    fun _ => .inr (.inl rfl)) fun prep => .bind (only_stopExistingSession hquiet
    (fun _ => .inl rfl) _) fun _ => ?_
  exact only_executeManagedServerLaunch (fun o ho => hquiet o (isQuiet_of_isReading ho))
    (.inr (.inr rfl)) (only_of_isQuiet hquiet (quiet_restartPolicy_checkInterrupted _ _)) _ _

section
variable {args : RestartArgs} {gitRoot : Utf8Path} {res : Except Error Unit}

/-- A restart that comes to its launch has stopped the session of the root. -/
theorem agree_of_launched (hinj : Set.InjOn gitRootDigest64 roots) (hw : Agree roots w)
    (hname : gitRoot.IsNormal → session.containerName = (workspaceAt gitRoot).containerName)
    (h : Exec (worldMachine Eq) (restartSession args gitRoot session) w t w' res)
    {e : Event HostOps WorldState} (he : e ∈ t) (hlaunches : launches e.op = true) :
    Agree roots w' := by
  have hquiet : ∀ o, isQuiet o = true → launches o = false := fun o ho =>
    launches_of_keepsContainers (keepsContainers_of_isQuiet ho)
  obtain ⟨restart, w1, t1, t2, h1, hrest1, he1⟩ := exec_bind_of_mem launches
    (only_ofExcept _) h he hlaunches
  obtain ⟨-, rfl, hprepare⟩ := exec_ofExcept.1 h1
  obtain ⟨workspace, w2, t3, t4, h3, hrest2, he2⟩ := exec_bind_of_mem launches
    (only_of_isQuiet hquiet (reading_restartLaunchWorkspace _ _ _).quiet) hrest1 he1 hlaunches
  obtain ⟨t5, -, h5⟩ := exec_readHost h3
  obtain ⟨-, rfl, hworkspace⟩ := exec_ofExcept.1 h5
  obtain ⟨limits, w3, t6, t7, h6, hrest3, he3⟩ := exec_bind_of_mem launches
    (only_of_isQuiet hquiet (reading_restartResourceLimits _ _).quiet) hrest2 he2 hlaunches
  obtain rfl := exec_still (reading_restartResourceLimits _ _).quiet h6
  obtain ⟨prep, w4, t8, t9, h8, hrest4, he4⟩ := exec_bind_of_mem launches
    (only_prepareRuntimeLaunch hquiet fun _ => rfl) hrest3 he3 hlaunches
  obtain ⟨htouches, hprepared⟩ := exec_prepareRuntimeLaunch h8
  obtain ⟨hprep, hstored⟩ := hprepared prep rfl
  obtain ⟨u, w5, t10, t11, h10, hrest5, he5⟩ := exec_bind_of_mem launches
    (only_stopExistingSession hquiet (fun _ => rfl) _) hrest4 he4 hlaunches
  obtain ⟨hshrinks, hgone⟩ := exec_stopExistingSession h10
  -- the workspace is that of the root, and the session had its name
  obtain ⟨hresolve, hroot⟩ := restartWorkspaceOf_eq_ok hworkspace.symm
  have hresolved := isResolved_of_ok hresolve
  subst hroot
  change Touches workspace.digest64 _ _ at htouches
  change _ → _ → Stored workspace.digest64 _ _ at hstored
  rw [hresolved.digest64_eq] at htouches hstored
  have hmem := hw.within _ _ hresolve
  have hagrees := (hw.agreeBut.of_touches hinj hmem htouches).of_shrinks hshrinks
  have hgone := hgone u rfl
  rw [(prepareRestartSession_eq_ok hprepare.symm).1, hname hresolved.gitRoot_isNormal] at hgone
  have hready : Ready roots workspace.canonicalGitRoot (replacementServerLaunchRequest workspace
      restart.runtime args.devEnv args.connect restart.serverArgs limits) prep w5 := by
    refine ⟨hresolved, rfl, hmem, show RuntimeRunMode.managedSession ≠ .foreground by decide, hprep,
      fun hruntime hmode => ?_, hagrees, vacant_of_gone hagrees hgone⟩
    obtain ⟨value, hvalue, htoken, haccepts⟩ :=
      hasToken_of_stored (hstored hruntime hmode) hprep hruntime
    exact ⟨value, hshrinks.tokens ▸ hvalue, htoken, haccepts⟩
  exact hready.agree_of_launch (launchesOnce_executeManagedServerLaunch
    (fun _ ho => isTame_of_isQuiet (isQuiet_of_isReading ho)) (only_of_isQuiet
    (fun _ ho => isTame_of_isQuiet ho) (quiet_restartPolicy_checkInterrupted _ _)) _ _) hrest5

/-- **The step lemma of a restart.** -/
theorem agree_of_restartSession (hinj : Set.InjOn gitRootDigest64 roots) (hw : Agree roots w)
    (hname : gitRoot.IsNormal → session.containerName = (workspaceAt gitRoot).containerName)
    (hcompletes : Completes t)
    (h : Exec (worldMachine Eq) (restartSession args gitRoot session) w t w' res) :
    Agree roots w' := by
  by_cases hlaunch : ∃ e ∈ t, launches e.op = true
  · obtain ⟨e, he, hlaunches⟩ := hlaunch
    exact agree_of_launched hinj hw hname h he hlaunches
  · refine hw.of_shrinks (exec_tame h fun e he => ?_)
    obtain htame | hwrites | hlaunches := (h.of_always (only_restartSession _ _ _)).2 e he
    · exact htame
    · exact absurd (hcompletes ⟨e, he, hwrites⟩) hlaunch
    · exact absurd ⟨e, he, hlaunches⟩ hlaunch

end

/-! ### Parts that keep the agreement -/

/-- The session has the name of the server of its root. -/
def OwnName (roots : Set Utf8Path) (session : SessionRecord) : Prop :=
  ∀ root, session.canonicalGitRoot = some root → root ∈ roots ∧ root.IsNormal ∧
    session.containerName = (workspaceAt root).containerName

/-- Where the stores agree they agree after the part, and its result is as `R` says. -/
def Keeps (roots : Set Utf8Path) (R : α → Prop) (p : Command α) : Prop :=
  ∀ w t w' res, Agree roots w → Exec (worldMachine Eq) p w t w' res →
    Agree roots w' ∧ ∀ a, res = .ok a → R a

theorem Keeps.bind {R : α → Prop} {R' : β → Prop} {p : Command α} {f : α → Command β}
    (hp : Keeps roots R p) (hf : ∀ a, R a → Keeps roots R' (f a)) : Keeps roots R' (p >>= f) := by
  intro w t w' res hw h
  obtain ⟨e, rfl, h1⟩ | ⟨a, w1, t1, t2, -, h1, h2⟩ := exec_bind.1 h
  · refine ⟨(hp _ _ _ _ hw h1).1, fun b hb => ?_⟩
    cases hb
  · obtain ⟨hw1, hR⟩ := hp _ _ _ _ hw h1
    exact hf a (hR a rfl) _ _ _ _ hw1 h2

theorem Keeps.attempt {R : α → Prop} {p : Command α} (hp : Keeps roots R p) :
    Keeps roots (fun _ => True) p.attempt := by
  intro w t w' res hw h
  obtain ⟨r, -, h1⟩ := exec_attempt.1 h
  exact ⟨(hp _ _ _ _ hw h1).1, fun _ _ => trivial⟩

theorem keeps_done (a : α) : Keeps roots (fun _ => True) (.done a) := by
  intro w t w' res hw h
  obtain ⟨-, rfl, -⟩ := exec_done.1 h
  exact ⟨hw, fun _ _ => trivial⟩

theorem keeps_ofExcept (r : Except Error α) :
    Keeps roots (fun a => r = .ok a) (Prog.ofExcept r) := by
  intro w t w' res hw h
  obtain ⟨-, rfl, rfl⟩ := exec_ofExcept.1 h
  exact ⟨hw, fun _ ha => ha⟩

theorem keeps_of_isQuiet {p : Command α} (hp : IsQuiet p) : Keeps roots (fun _ => True) p := by
  intro w t w' res hw h
  exact ⟨exec_still hp h ▸ hw, fun _ _ => trivial⟩

theorem keeps_of_only {p : Command α} (hp : Only (S := HostOps) (fun o => isTame o = true) p) :
    Keeps roots (fun _ => True) p := by
  intro w t w' res hw h
  exact ⟨hw.of_shrinks (exec_onlyTame hp h), fun _ _ => trivial⟩

theorem Keeps.withGuard {R : α → Prop} {operation : Command α} (h : Keeps roots R operation) :
    Keeps roots (fun _ => True) (withGuard digest64 operation) := by
  have hlock : Keeps roots (fun _ => True) (lockGuard digest64) :=
    keeps_of_only ⟨rfl, fun _ => only_ofExcept _⟩
  have hunlock : Keeps roots (fun _ => True) (unlock digest64) :=
    keeps_of_only ⟨rfl, fun _ => only_done _⟩
  exact hlock.bind fun _ _ => h.attempt.bind fun result _ => hunlock.bind fun _ _ =>
    keeps_of_only (only_ofExcept result)

theorem ownName_of_isSessionOf {probe : GitRootProbe} (hw : Agree roots w)
    (hc : c ∈ w.podman.containers) (h : IsSessionOf probe c session) : OwnName roots session := by
  intro root hroot
  obtain ⟨root', hmem, hstarted⟩ := hw.started c hc h.isSome_kind
  rw [h.canonicalGitRoot_eq, hstarted.rootOf, Option.some.injEq] at hroot
  subst hroot
  refine ⟨hmem, hstarted.isNormal, ?_⟩
  rw [h.containerName_eq, PodmanContainer.containerName, hstarted.names]
  rfl

theorem keeps_discover {scope : SessionDiscoveryScope} {containerScope : ContainerDiscoveryScope}
    (hview : ∀ probe s sessions, view probe s scope containerScope = .ok sessions →
      ∀ session ∈ sessions, ∃ c ∈ s.containers, IsSessionOf probe c session) :
    Keeps roots (fun sessions => ∀ session ∈ sessions, OwnName roots session)
      (discover scope containerScope) := by
  intro w t w' res hw h
  rw [exec_still (reading_discover _ _).quiet h]
  refine ⟨hw, fun sessions hok session hsession => ?_⟩
  subst hok
  obtain ⟨c, hc, hof⟩ := hview _ _ _ (exec_discover h).2 session hsession
  exact ownName_of_isSessionOf hw hc hof

theorem keeps_discoverSessions (gitRoot : Utf8Path) :
    Keeps roots (fun sessions => ∀ session ∈ sessions, OwnName roots session)
      (discoverSessions gitRoot) := by
  refine keeps_discover fun probe s sessions hview session hmem => ?_
  obtain ⟨c, hc, hof, -⟩ := isSessionOf_of_mem_view hview hmem
  exact ⟨c, hc, hof⟩

theorem keeps_discoverAgentboxContainers :
    Keeps roots (fun sessions => ∀ session ∈ sessions, OwnName roots session)
      discoverAgentboxContainers := by
  refine keeps_discover fun probe s sessions hview session hmem => ?_
  rw [view_all, Except.ok.injEq] at hview
  exact isSessionOf_of_mem_shown (hview ▸ hmem)

/-! ### Stop -/

theorem exec_removeToken {res : Except Error Unit}
    (h : Exec (worldMachine Eq) (removeCodexAttachTokenForSession session) w t w' res) :
    w' = w ∨ ∃ root, session.canonicalGitRoot = some root ∧
      Touches (gitRootDigest64 root) w w' := by
  unfold removeCodexAttachTokenForSession at h
  split_ifs at h
  · split at h
    · next root hroot =>
      obtain ⟨r, w1, t1, -, ⟨w2, hserves, hothers⟩, h1⟩ := exec_call.1 h
      subst hothers
      obtain ⟨-, rfl, -⟩ := exec_ofExcept.1 h1
      refine .inr ⟨root, hroot, ?_⟩
      obtain rfl | ⟨-, rfl⟩ := hserves
      · exact .inr ⟨none, rfl⟩
      · exact .inl rfl
    · obtain ⟨-, rfl, -⟩ := exec_done.1 h
      exact .inl rfl
  · obtain ⟨-, rfl, -⟩ := exec_done.1 h
    exact .inl rfl

/-- The token of a root is removed when its server is verified to be gone. -/
theorem keeps_cleanupManagedContainer (hinj : Set.InjOn gitRootDigest64 roots)
    (hown : OwnName roots session) :
    Keeps roots (fun _ => True) (cleanupManagedContainer session) := by
  intro w t w' res hw h
  refine ⟨?_, fun _ _ => trivial⟩
  obtain ⟨e, rfl, h1⟩ | ⟨cleanup, w1, t1, t2, -, h1, h2⟩ := exec_bind.1 h
  · obtain ⟨-, cleanup, hcleanup, -⟩ := exec_stopAndVerify h1
    cases hcleanup
  obtain ⟨hshrinks, _, hok, hgone⟩ := exec_stopAndVerify h1
  cases hok
  have hw1 : Agree roots w1 := hw.of_shrinks hshrinks
  split at h2
  · obtain ⟨-, rfl, -⟩ := exec_done.1 h2
    exact hw1
  · next hnone =>
    obtain ⟨e, -, h3⟩ | ⟨r, w2, t3, t4, -, h3, h4⟩ := exec_bind.1 h2
    · obtain ⟨r, hr, -⟩ := exec_attempt.1 h3
      cases hr
    obtain ⟨-, rfl, -⟩ := exec_done.1 h4
    obtain ⟨result, -, h5⟩ := exec_attempt.1 h3
    obtain rfl | ⟨root, hroot, htouches⟩ := exec_removeToken h5
    · exact hw1
    · obtain ⟨hmem, -, hname⟩ := hown root hroot
      have hvacant := vacant_of_gone hw1 (hname ▸ hgone hnone)
      refine agree_of_vacant (hw1.agreeBut.of_touches hinj hmem htouches) fun c hc => ?_
      exact hvacant c (htouches.podman_eq ▸ hc)

section
variable (hinj : Set.InjOn gitRootDigest64 roots)
include hinj

theorem keeps_cleanupManagedContainers : ∀ sessions : List SessionRecord,
    (∀ session ∈ sessions, OwnName roots session) →
      Keeps roots (fun _ => True) (cleanupManagedContainers sessions)
  | [], _ => keeps_done _
  | session :: sessions, hown => by
    obtain ⟨hfirst, hrest⟩ := List.forall_mem_cons.1 hown
    exact (keeps_cleanupManagedContainer hinj hfirst).bind fun _ _ =>
      (keeps_cleanupManagedContainers sessions hrest).bind fun _ _ => keeps_done _

theorem keeps_cleanupRootedSessionGroups (scope : RootedSessionCleanupScope) :
    ∀ groups : List SessionGroup,
      (∀ group ∈ groups, ∀ session ∈ group.sessions, OwnName roots session) →
        Keeps roots (fun _ => True) (cleanupRootedSessionGroups scope groups)
  | [], _ => keeps_done _
  | group :: groups, hown => by
    obtain ⟨hfirst, hrest⟩ := List.forall_mem_cons.1 hown
    have hscope : Keeps roots (fun _ => True)
        (scope.cleanup group.canonicalGitRoot group.sessions) := by
      unfold RootedSessionCleanupScope.cleanup
      split
      · exact keeps_cleanupManagedContainers hinj _ hfirst
      · exact (keeps_discoverSessions _).bind fun sessions hsessions =>
          keeps_cleanupManagedContainers hinj _ fun session hmem =>
            hsessions session (List.mem_filter.1 (List.mem_filter.1 hmem).1).1
    exact hscope.withGuard.bind fun _ _ =>
      (keeps_cleanupRootedSessionGroups scope groups hrest).bind fun _ _ => keeps_done _

end

/-- The groups and the rest of a partition have the sessions that were partitioned. -/
theorem ownName_of_partition {sessions : List SessionRecord}
    (hown : ∀ session ∈ sessions, OwnName roots session) :
    (∀ group ∈ (partitionSessionsByGitRoot sessions).rooted, ∀ session ∈ group.sessions,
      OwnName roots session) ∧
    ∀ session ∈ (partitionSessionsByGitRoot sessions).unrooted, OwnName roots session := by
  refine ⟨fun group hgroup session hsession => ?_, fun session hsession =>
    hown session (List.mem_filter.1 hsession).1⟩
  obtain ⟨root, first, rest, -, hfilter, rfl⟩ := mem_rooted.1 hgroup
  rw [← hfilter] at hsession
  exact hown session (List.mem_filter.1 hsession).1

/-- What a plan of `stop` has listed before it locks. -/
def PlanOwn (roots : Set Utf8Path) : StopSessionTargetPlan → Prop
  | .exactGitRoot _ => True
  | .stableId plan => ∀ session ∈ plan.sessions, OwnName roots session

theorem keeps_resolveStop (target : SessionTargetInput) : Keeps roots (PlanOwn roots)
    (StopSessionTargetPlan.resolve readHost discoverAgentboxContainers target) := by
  refine (keeps_of_isQuiet reading_readHost.quiet).bind fun host _ =>
    (keeps_ofExcept _).bind fun resolved _ => ?_
  have hexact (plan : StopExactGitRootTarget) : Keeps roots (PlanOwn roots)
      (.done (.exactGitRoot plan)) := by
    intro w t w' res hw h
    obtain ⟨-, rfl, rfl⟩ := exec_done.1 h
    refine ⟨hw, fun plan' hplan => ?_⟩
    cases hplan
    trivial
  split
  · exact hexact _
  · exact hexact _
  · refine keeps_discoverAgentboxContainers.bind fun sessions hown =>
      (keeps_ofExcept _).bind fun selection hselection =>
      (keeps_ofExcept _).bind fun rooted hrooted => ?_
    intro w t w' res hw h
    obtain ⟨-, rfl, rfl⟩ := exec_done.1 h
    refine ⟨hw, fun plan hplan => ?_⟩
    cases hplan
    intro session hsession
    unfold StableIdTargetSelection.intoAllRootedSessions at hrooted
    simp only at hrooted
    split_ifs at hrooted
    cases hrooted
    have hselected := (List.mem_filter.1 hsession).1
    rw [(selectStableIdPrefix_spec hselection).2.1] at hselected
    exact hown session (List.mem_filter.1 hselected).1

section
variable (hinj : Set.InjOn gitRootDigest64 roots)
include hinj

theorem keeps_stopTarget (target : SessionTargetInput) (force : Bool) :
    Keeps roots (fun _ => True) (stopTarget target force) := by
  have hfinish (r : Except Error Unit) : Keeps roots (fun _ => True) (Prog.ofExcept r) :=
    keeps_of_only (only_ofExcept r)
  refine (keeps_resolveStop target).bind fun plan hplan => ?_
  rcases plan with plan | plan
  · refine Keeps.bind (Keeps.withGuard (R := fun _ => True) ?_) fun failures _ => hfinish _
    have hrest (sessions : List SessionRecord)
        (hown : ∀ session ∈ sessions, OwnName roots session) : Keeps roots (fun _ => True) (do
          Prog.ofExcept (plan.requireNonEmptyMatches (plan.exactMatchesFrom sessions))
          Prog.ofExcept (plan.requireForceForMatches (plan.exactMatchesFrom sessions).length force
            target)
          cleanupSelectedSessions (plan.exactMatchesFrom sessions)) :=
      (hfinish _).bind fun _ _ => (hfinish _).bind fun _ _ =>
        keeps_cleanupManagedContainers hinj _ fun session hmem =>
          hown session (List.mem_filter.1 hmem).1
    unfold stopExactGitRootLocked
    simp only
    split_ifs
    · exact (keeps_discoverSessions _).bind hrest
    · exact keeps_discoverAgentboxContainers.bind hrest
  · exact (hfinish _).bind fun _ _ => (keeps_cleanupRootedSessionGroups hinj _ _
      (ownName_of_partition hplan).1).bind fun _ _ => hfinish _

theorem keeps_stopEachTarget (force : Bool) : ∀ targets : List SessionTargetInput,
    Keeps roots (fun _ => True) (stopEachTarget force targets)
  | [] => keeps_done _
  | target :: targets => by
    refine (keeps_stopTarget hinj target force).attempt.bind fun result _ =>
      (keeps_stopEachTarget force targets).bind fun failures _ => ?_
    split
    · exact keeps_done _
    · exact keeps_done _

theorem keeps_stopTargets (targets : List SessionTargetInput) (force : Bool) :
    Keeps roots (fun _ => True) (stopTargets targets force) := by
  unfold stopTargets
  split
  · exact keeps_done _
  · exact keeps_stopTarget hinj _ _
  · refine (keeps_stopEachTarget hinj force _).bind fun failures _ => ?_
    split
    · exact keeps_done _
    · exact keeps_of_only (only_fail _)

theorem keeps_stopAllRunning : Keeps roots (fun _ => True) stopAllRunning := by
  refine keeps_discoverAgentboxContainers.bind fun discovered hown =>
    Keeps.bind (R := fun _ => True) ?_ fun failures _ => keeps_of_only (only_ofExcept _)
  have hrunning : ∀ session ∈ discovered.filter fun session => session.containerRunning,
      OwnName roots session := fun session hmem => hown session (List.mem_filter.1 hmem).1
  obtain ⟨hrooted, hunrooted⟩ := ownName_of_partition hrunning
  exact (keeps_cleanupRootedSessionGroups hinj _ _ hrooted).bind fun _ _ =>
    (keeps_cleanupManagedContainers hinj _ hunrooted).bind fun _ _ => keeps_done _

end

/-! ### The commands -/

/-- The operation under a lock, and the calls around it. -/
theorem exec_locked {operation : Command α} {res : Except Error α}
    (h : Exec (worldMachine Eq) (withGuard digest64 operation) w t w' res) (hw : Agree roots w)
    (hop : ∀ w1 t1 w2, Agree roots w1 → w1.host = w.host → w1.held = digest64 :: w.held →
      (Completes t → Completes t1) → Exec (worldMachine Eq) operation w1 t1 w2 res →
        Agree roots w2) : Agree roots w' := by
  obtain ⟨e, rfl, ⟨w1, hserves, rfl⟩, -⟩ | ⟨w1, t1, w2, rfl, ⟨w3, hlock, rfl⟩, h1,
    ⟨w4, hunlock, rfl⟩⟩ := exec_withGuard h
  · exact hw.of_shrinks (serves_tame rfl hserves)
  · have hw3 : Agree roots w3 := hw.of_shrinks (serves_tame rfl hlock)
    obtain ⟨⟨_, he⟩, -⟩ | ⟨-, rfl⟩ := hlock
    · cases he
    refine (hop _ t1 w2 hw3 rfl rfl (fun hcompletes => ?_) h1).of_shrinks (serves_tame rfl hunlock)
    rintro ⟨e, he, hwrites⟩
    obtain ⟨e', he', hlaunches⟩ := hcompletes ⟨e, by simp [he], hwrites⟩
    refine ⟨e', ?_, hlaunches⟩
    simp only [List.mem_cons, List.mem_append, List.not_mem_nil, or_false] at he'
    obtain rfl | he' | rfl := he'
    · cases hlaunches
    · exact he'
    · cases hlaunches

theorem exec_resolveWorkspace {directory : OsPath}
    (h : Exec (worldMachine Eq) (resolveWorkspace directory) w t w' (.ok workspace)) :
    resolveWorkspaceIdentity w.host directory = .ok workspace := by
  obtain ⟨t1, -, h1⟩ := exec_readHost h
  exact (exec_ofExcept.1 h1).2.2.symm

theorem agree_of_lockedWorkspace {directory : OsPath} {operation : WorkspaceIdentity → Command Unit}
    {res : Except Error Unit} (hw : Agree roots w) (hheld : w.held = [])
    (hop : ∀ workspace w1 t1 w2, IsResolved workspace → workspace.canonicalGitRoot ∈ roots →
      w1.held = [workspace.digest64] → Agree roots w1 →
        Exec (worldMachine Eq) (operation workspace) w1 t1 w2 res → Agree roots w2)
    (h : Exec (worldMachine Eq) (withLockedWorkspace directory operation) w t w' res) :
    Agree roots w' := by
  obtain ⟨rfl, -⟩ | ⟨workspace, t1, t2, -, h1, h2⟩ :=
    exec_bind_still (reading_resolveWorkspace directory).quiet h
  · exact hw
  have hresolve := exec_resolveWorkspace h1
  refine exec_locked h2 hw fun w1 t3 w2 hw1 _ hheld1 _ h3 => ?_
  rw [hheld] at hheld1
  exact hop workspace w1 t3 w2 (isResolved_of_ok hresolve) (hw.within _ _ hresolve) hheld1 hw1 h3

/-- The session that a restart selects has the name of the server of the locked root. -/
theorem exec_selectSessionCandidate {plan : RestartSessionTargetPlan} (hw : Agree roots w)
    (h : Exec (worldMachine Eq) (plan.selectSessionCandidate readHost
      (discoverSessions plan.lockGitRoot) discoverAgentboxContainers plan.lockGitRoot) w t w'
      (.ok session)) (hnormal : plan.lockGitRoot.IsNormal) :
    session.containerName = (workspaceAt plan.lockGitRoot).containerName := by
  have hwp := @wp_selectSessionCandidate w.podman w plan.lockGitRoot Eq (fun _ _ => True)
    (fun x => x = w) plan (fun _ _ _ _ => trivial) (fun x y hx hxy => hxy ▸ hx)
    (fun x hx => by rw [hx]) rfl
  obtain ⟨⟨-, htells⟩, -⟩ := h.of_wp hwp
  obtain ⟨w1, rfl, hcandidate⟩ := htells session rfl
  obtain ⟨resolved, -, ⟨c, hc, hof, -⟩, -⟩ := candidateIn_claimants hcandidate
  obtain ⟨root, -, hstarted⟩ := hw.started c hc hof.isSome_kind
  have hroot : session.canonicalGitRoot = some root := hof.canonicalGitRoot_eq.trans hstarted.rootOf
  obtain ⟨-, hrootNormal, hname⟩ := ownName_of_isSessionOf hw hc hof root hroot
  rw [hname, Utf8Path.eq_of_beq hrootNormal hnormal (candidateIn_gitRoot hcandidate hroot)]

/-- A restart that writes a token goes on to start a server. -/
def RestartCompletes : SessionCommand → List (Event HostOps WorldState) → Prop
  | .restart _, t => Completes t
  | _, _ => True

/-- **The step lemma.** Every command keeps the agreement. -/
theorem agree_of_command (hinj : Set.InjOn gitRootDigest64 roots) {command : SessionCommand}
    {res : Except Error Unit} (hw : Agree roots w) (hheld : w.held = [])
    (hcompletes : RestartCompletes command t)
    (h : Exec (worldMachine Eq) command.program w t w' res) : Agree roots w' := by
  cases command with
  | start args =>
    obtain ⟨rfl, -⟩ | ⟨defaults, t1, t2, -, -, h2⟩ := exec_bind_still reading_loadConfig.quiet h
    · exact hw
    · exact agree_of_lockedWorkspace hw hheld (fun _ _ _ _ hresolved hmem hheld1 hw1 h3 =>
        agree_of_startLocked hinj hresolved hmem hheld1 hw1 h3) h2
  | run args =>
    obtain ⟨rfl, -⟩ | ⟨defaults, t1, t2, -, -, h2⟩ := exec_bind_still reading_loadConfig.quiet h
    · exact hw
    · exact agree_of_lockedWorkspace hw hheld (fun _ _ _ _ hresolved hmem hheld1 hw1 h3 =>
        agree_of_runLocked hinj hresolved hmem hheld1 hw1 h3) h2
  | restart args =>
    obtain ⟨rfl, -⟩ | ⟨plan, t1, t2, rfl, h1, h2⟩ :=
      exec_bind_still (reading_resolveRestart args.target).quiet h
    · exact hw
    refine exec_locked h2 hw fun w1 t3 w2 hw1 _ _ hsub h3 => ?_
    have hcompletes3 := hsub (hcompletes.of_append (h1.of_always
      (reading_resolveRestart args.target).quiet).2)
    obtain ⟨rfl, -⟩ | ⟨session, t4, t5, rfl, h4, h5⟩ :=
      exec_bind_still (reading_selectSessionCandidate plan plan.lockGitRoot).quiet h3
    · exact hw1
    · exact agree_of_restartSession hinj hw1 (exec_selectSessionCandidate hw1 h4)
        (hcompletes3.of_append (h4.of_always (reading_selectSessionCandidate _ _).quiet).2) h5
  | connect directory agentArgs =>
    refine agree_of_lockedWorkspace hw hheld (fun workspace w1 t1 w2 _ _ _ hw1 h1 => ?_) h
    rw [exec_still (reading_connectLocked agentArgs workspace).quiet h1]
    exact hw1
  | stop targets force => exact (keeps_stopTargets hinj targets force _ _ _ _ hw h).1
  | stopAll => exact (keeps_stopAllRunning hinj _ _ _ _ hw h).1

/-! ### Connect -/

theorem trim_of_isToken {value : String} (h : IsToken value) : trim value = value := by
  obtain ⟨bytes, -, rfl⟩ := h
  have hvisible : ∀ c ∈ (hexLower bytes).toList, isWhitespace c = false := by
    intro c hc
    rw [hexLower, String.toList_ofList, List.mem_flatMap] at hc
    obtain ⟨b, -, hb⟩ := hc
    simp only [List.mem_cons, List.not_mem_nil, or_false] at hb
    obtain rfl | rfl := hb
    · exact isWhitespace_hexDigit _
    · exact isWhitespace_hexDigit _
  have hkeep : ∀ l : List Char, (∀ c ∈ l, isWhitespace c = false) →
      l.dropWhile isWhitespace = l := by
    intro l hl
    rcases l with _ | ⟨c, l⟩
    · rfl
    · rw [List.dropWhile_cons_of_neg (by rw [hl c List.mem_cons_self]; decide)]
  rw [trim, hkeep _ hvisible, hkeep _ fun c hc => hvisible c (List.mem_reverse.1 hc),
    List.reverse_reverse, String.ofList_toList]

def callsClient : HostOp → Bool
  | .runHostClient _ _ _ => true
  | _ => false

/-- The client is started for a running managed server of a root, at the endpoint that the server
publishes; for a Codex server with a token that the server accepts, for another one without. -/
def ClientFits (w : WorldState) (agentArgs argv : List String) (token : Option String) : Prop :=
  ∃ c ∈ w.podman.containers, c.kind = some .managed ∧ c.running = true ∧ ∃ runtime endpoint,
    (record w.host.gitRootProbe c .managed).runtimeKind = some runtime ∧
    (record w.host.gitRootProbe c .managed).attachEndpoint = some endpoint ∧
    argv = runtime.hostClientCommand endpoint ++ agentArgs ∧
    (runtime = .codex → ∃ value, token = some value ∧ Accepts c.command value) ∧
    (runtime = .opencode → token = none)

theorem prepareConnectSession_eq_ok {accepted : ConnectableSession}
    (h : prepareConnectSession workspace session = .ok accepted) :
    accepted.session.runtimeKind = some accepted.runtime ∧
      accepted.session.attachEndpoint = some accepted.endpoint := by
  have hsome : ∀ {γ : Type} {value : Option γ} {failure} {a : γ},
      orFailure value workspace session failure = .ok a → value = some a := by
    intro γ value failure a ha
    rcases value with _ | a'
    · cases ha
    · exact congrArg some (Except.ok.inj ha)
  unfold prepareConnectSession at h
  obtain ⟨_, -, h⟩ := bind_eq_ok.1 h
  obtain ⟨runtime, hruntime, h⟩ := bind_eq_ok.1 h
  obtain ⟨endpoint, hendpoint, h⟩ := bind_eq_ok.1 h
  obtain ⟨_, -, h⟩ := bind_eq_ok.1 h
  cases h
  exact ⟨hsome hruntime, hsome hendpoint⟩

theorem selectConnectSession_eq_ok {sessions : List SessionRecord} {accepted : ConnectableSession}
    (h : selectConnectSession workspace sessions = .ok accepted) :
    accepted.session.runtimeKind = some accepted.runtime ∧
      accepted.session.attachEndpoint = some accepted.endpoint := by
  unfold selectConnectSession at h
  obtain ⟨selected, -, h⟩ := bind_eq_ok.1 h
  rcases selected with _ | session
  · cases h
  · exact prepareConnectSession_eq_ok h

/-- The token of a client of a Codex server is the one of the file. -/
theorem exec_loadToken {runtime : RuntimeKind} {token : Option CodexAttachToken}
    (h : Exec (worldMachine Eq) (loadCodexAttachTokenForClient runtime workspace) w t w'
      (.ok token)) : (runtime = .opencode → token = none) ∧
    (runtime = .codex → ∃ text, token = some (.fromValue (trim text)) ∧
      ∀ value, w.tokens workspace.digest64 = some value → value = text) := by
  unfold loadCodexAttachTokenForClient at h
  split at h
  · refine ⟨fun hruntime => (by cases hruntime), fun _ => ?_⟩
    obtain ⟨loaded, w1, t1, t2, -, h1, h2⟩ := exec_bind_ok h
    obtain ⟨r, w2, t3, -, ⟨w3, ⟨hread, -⟩, -⟩, h3⟩ := exec_call.1 h1
    rcases r with ⟨_ | detail⟩ | text
    · cases h3
    · cases h3
    · change Exec _ (if trim text = "" then _ else _) _ _ _ _ at h3
      split_ifs at h3
      · cases h3
      · cases h3
        cases h2
        refine ⟨text, rfl, fun value hvalue => ?_⟩
        rw [hread text rfl, Option.some.injEq] at hvalue
        exact hvalue.symm
  · cases h
    exact ⟨fun _ => rfl, fun hruntime => (by cases hruntime)⟩

/-- What is called before the client. -/
def CallsNoClient (p : Command α) : Prop := Only (S := HostOps) (fun o => callsClient o = false) p

theorem callsNoClient_inspectAll (probe : GitRootProbe) :
    ∀ l, CallsNoClient (inspectAll inspectOne probe l)
  | [] => only_done _
  | (container, _) :: l => by
    have hinspect : CallsNoClient (inspectOne container.id) := ⟨rfl, only_ofExcept⟩
    exact Only.bind hinspect fun _ => Only.bind (callsNoClient_inspectAll probe l) fun _ =>
      only_done _

theorem callsNoClient_discover (scope : SessionDiscoveryScope)
    (containerScope : ContainerDiscoveryScope) : CallsNoClient (discover scope containerScope) := by
  have hps (managedOnly : Bool) : CallsNoClient (ps managedOnly) := ⟨rfl, only_ofExcept⟩
  have hhost : CallsNoClient readHost := ⟨rfl, only_done⟩
  refine Only.bind (hps _) fun containers => Only.bind hhost fun host => ?_
  rw [discoverSessionsFromPs_eq]
  exact Only.bind (callsNoClient_inspectAll _ _) fun _ => only_ofExcept _

theorem callsNoClient_loadToken (runtime : RuntimeKind) :
    CallsNoClient (loadCodexAttachTokenForClient runtime workspace) := by
  have hread : CallsNoClient (readToken workspace.digest64) := ⟨rfl, only_done⟩
  unfold loadCodexAttachTokenForClient
  split
  · refine Only.bind (Only.bind hread fun text => ?_) fun _ => only_done _
    split
    · exact only_fail _
    · exact only_fail _
    · split_ifs
      · exact only_fail _
      · exact only_done _
  · exact only_done _

/-- The call starts the client at the endpoint, with the token that the runtime requires. -/
def StartsClient (runtime : RuntimeKind) (endpoint : AttachEndpoint) (agentArgs : List String)
    (loaded : Option CodexAttachToken) (o : HostOp) : Prop :=
  ∀ argv workdir token, o = .runHostClient argv workdir token →
    argv = runtime.hostClientCommand endpoint ++ agentArgs ∧
      ∃ required, requiredCodexClientToken runtime loaded = .ok required ∧
        token = required.map CodexAttachToken.value

theorem only_runHostRuntimeClient (runtime : RuntimeKind) (endpoint : AttachEndpoint)
    (launchDirectory : Utf8Path) (loaded : Option CodexAttachToken) (agentArgs : List String) :
    Only (S := HostOps) (StartsClient runtime endpoint agentArgs loaded)
      (runHostRuntimeClient runtime endpoint launchDirectory loaded agentArgs) := by
  have hstatus : Only (S := HostOps) (StartsClient runtime endpoint agentArgs loaded)
      (runHostRuntimeClientStatus runtime endpoint launchDirectory loaded agentArgs) := by
    refine always_bind ((always_ofExcept _ fun r => r = requiredCodexClientToken runtime loaded).2
      rfl) (fun _ _ => trivial) fun required hrequired => ⟨?_, only_ofExcept⟩
    rintro argv workdir token ⟨⟩
    exact ⟨rfl, required, hrequired.symm, rfl⟩
  refine Only.bind hstatus fun status => ?_
  split_ifs
  · exact only_done _
  · exact only_fail _

/-- A client is started under the lock, where nothing else has changed. -/
theorem exec_withGuard_mem {operation : Command α} {res : Except Error α}
    (h : Exec (worldMachine Eq) (withGuard digest64 operation) w t w' res)
    {e : Event HostOps WorldState} (he : e ∈ t) (hcalls : callsClient e.op = true) :
    ∃ t1 w2, Exec (worldMachine Eq) operation { w with held := digest64 :: w.held } t1 w2 res ∧
      e ∈ t1 := by
  obtain ⟨_, rfl, -, -⟩ | ⟨w1, t1, w2, rfl, ⟨w3, hlock, rfl⟩, h1, -⟩ := exec_withGuard h
  · rw [List.mem_singleton.1 he] at hcalls
    cases hcalls
  obtain ⟨⟨_, herror⟩, -⟩ | ⟨-, rfl⟩ := hlock
  · cases herror
  refine ⟨t1, w2, h1, ?_⟩
  simp only [List.mem_cons, List.mem_append, List.not_mem_nil, or_false] at he
  obtain rfl | he | rfl := he
  · cases hcalls
  · exact he
  · cases hcalls

/-- Every client that `connect` starts fits its server. -/
theorem clientFits_of_connect (hw : Agree roots w) {directory : OsPath} {agentArgs : List String}
    {res : Except Error Unit}
    (h : Exec (worldMachine Eq) (connectDirectory directory agentArgs) w t w' res)
    {e : Event HostOps WorldState} (he : e ∈ t) {argv : List String} {workdir : Utf8Path}
    {token : Option String} (hop : e.op = HostOp.runHostClient argv workdir token) :
    ClientFits w agentArgs argv token := by
  have hcalls : callsClient e.op = true := by
    rw [hop]
    rfl
  obtain ⟨workspace, w1, t1, t2, h1, h2, he2⟩ := exec_bind_of_mem callsClient
    (p := resolveWorkspace directory) ⟨rfl, fun _ => only_ofExcept _⟩ h he hcalls
  obtain rfl := exec_still (reading_resolveWorkspace directory).quiet h1
  have hresolved := isResolved_of_ok (exec_resolveWorkspace h1)
  obtain ⟨t3, w3, h3, he3⟩ := exec_withGuard_mem h2 he2 hcalls
  obtain ⟨sessions, w4, t4, t5, h4, h5, he5⟩ :=
    exec_bind_of_mem callsClient (callsNoClient_discover _ _) h3 he3 hcalls
  obtain ⟨rfl, hview⟩ := exec_discover h4
  obtain ⟨accepted, w6, t6, t7, h6, h7, he7⟩ :=
    exec_bind_of_mem callsClient (only_ofExcept _) h5 he5 hcalls
  obtain ⟨-, rfl, hselect⟩ := exec_ofExcept.1 h6
  obtain ⟨loaded, w8, t8, t9, h8, h9, he9⟩ :=
    exec_bind_of_mem callsClient (callsNoClient_loadToken _) h7 he7 hcalls
  obtain ⟨hopencode, hcodex⟩ := exec_loadToken h8
  have hclient : Only (S := HostOps) (StartsClient accepted.runtime accepted.endpoint agentArgs
      loaded) (runHostRuntimeClient accepted.runtime accepted.endpoint accepted.launchDirectory
        loaded agentArgs).attempt := (only_runHostRuntimeClient _ _ _ _ _).attempt
  have hstarts : StartsClient accepted.runtime accepted.endpoint agentArgs loaded e.op := by
    obtain ⟨_, -, h10⟩ | ⟨result, w9, t10, t11, rfl, h10, h11⟩ := exec_bind.1 h9
    · exact (h10.of_always hclient).2 e he9
    · refine (h10.of_always hclient).2 e ((List.mem_append.1 he9).resolve_right fun hmem => ?_)
      rcases result with error | ⟨⟩
      · rw [(exec_fail.1 h11).1] at hmem
        cases hmem
      · rw [(exec_done.1 h11).1] at hmem
        cases hmem
  obtain ⟨hargv, required, hrequired, htoken⟩ := hstarts argv workdir token hop
  have haccepted : connectSession w1.podman w1.host.gitRootProbe workspace = .ok accepted := by
    have hlisting : discovered (w1.podman.listing true) (.forGitRoot workspace.canonicalGitRoot)
        .managedSessions w1.podman.inspectOne w1.host.gitRootProbe = .ok sessions :=
      (discovered_listing _ _ _ _).trans hview
    rw [connectSession, hlisting]
    exact hselect.symm
  obtain ⟨-, c, hc, hsession, hstatus⟩ := connectSession_ok haccepted
  obtain ⟨hmem, hkind, hbelongs⟩ := mem_connectView (hc ▸ List.mem_singleton_self c)
  obtain ⟨hruntime, hendpoint⟩ := selectConnectSession_eq_ok hselect.symm
  rw [hsession] at hruntime hendpoint
  obtain ⟨_, hhealthy, -⟩ := @healthy_of_not_isFailed c.listed c.inspected .managed
    w1.host.gitRootProbe (by rw [record] at hstatus; rw [hstatus]; rfl)
  refine ⟨c, hmem, hkind, hhealthy.running, accepted.runtime, accepted.endpoint, hruntime,
    hendpoint, hargv, fun hcodexServer => ?_, fun hopencodeServer => ?_⟩
  · obtain ⟨text, rfl, hfile⟩ := hcodex hcodexServer
    rw [hcodexServer] at hrequired
    cases hrequired
    refine ⟨trim text, htoken, ?_⟩
    -- the file has the token that the server accepts
    obtain ⟨root, -, hstarted⟩ := hw.started c hmem (by rw [hkind]; rfl)
    have hbeq := root_of_belongs hstatus hbelongs
    have hlabel : (record w1.host.gitRootProbe c .managed).canonicalGitRoot = some root :=
      hstarted.rootOf
    rw [hlabel, some_beq_some] at hbeq
    have hroot := Utf8Path.eq_of_beq hstarted.isNormal hresolved.gitRoot_isNormal hbeq
    obtain ⟨value, hvalue, his, haccepts⟩ := hw.agrees c hmem ⟨hkind, hcodexServer ▸ hruntime⟩ root
      hstarted.rootOf id
    rw [hroot, ← hresolved.digest64_eq] at hvalue
    rw [← hfile value hvalue, trim_of_isToken his]
    exact haccepts
  · rw [hopencodeServer] at hrequired
    cases hrequired
    exact htoken

/-! ### Runs -/

/-- Runs of commands, one after the other, each by a process that holds no lock at first; between
them others may stop and remove the containers of agentbox, have containers of their own, and change
the file system within the roots. -/
def tokenRuns (roots : Set Utf8Path) : System WorldState (Option SessionCommand) where
  init w := Within roots w.host ∧ ∀ c ∈ w.podman.containers, c.kind = none
  step
    | w, none, w' => Fewer w w' ∧ Within roots w'.host
    | w, some command, w' => ∃ t res, RestartCompletes command t ∧
        Exec (worldMachine Eq) command.program { w with held := [] } t w' res

theorem agree_of_init (h : (tokenRuns roots).init w) : Agree roots w where
  within := h.1
  started c hc hkind := by
    rw [h.2 c hc] at hkind
    cases hkind
  agrees c hc hcodex := by
    have hkind := hcodex.1
    rw [h.2 c hc] at hkind
    cases hkind

/-- The agreement does not depend on the locks. -/
theorem Agree.of_held (h : Agree roots w) (held : List String) :
    Agree roots { w with held := held } := ⟨h.within, h.started, h.agrees⟩

/-- **The run lemma.** -/
theorem agree_of_reachable (hinj : Set.InjOn gitRootDigest64 roots)
    (h : Reachable (tokenRuns roots) w) : Agree roots w := by
  refine h.invariant (fun w hinit => agree_of_init hinit) fun w label w' hw hstep => ?_
  rcases label with _ | command
  · exact hw.of_fewer hstep.1 hstep.2
  · obtain ⟨t, res, hcompletes, hexec⟩ := hstep
    exact agree_of_command hinj (hw.of_held []) rfl hcompletes hexec

/-- **The token of a Codex server.** In every run of commands in which a restart that writes a token
goes on to start a server, the token file of a root has a token that the managed Codex server of the
root accepts; and every client that `connect` starts then fits a running server of agentbox. -/
theorem token_agreement (roots : Set Utf8Path) (hinj : Set.InjOn gitRootDigest64 roots)
    (w : WorldState) (h : Reachable (tokenRuns roots) w) :
    (∀ c ∈ w.podman.containers, IsManagedCodex c → ∃ root ∈ roots, rootOf c = some root ∧
      HasToken w (gitRootDigest64 root) c.command) ∧
    ∀ directory agentArgs t w' res, Exec (worldMachine Eq) (connectDirectory directory agentArgs)
      { w with held := [] } t w' res → ∀ e ∈ t, ∀ argv workdir token,
        e.op = HostOp.runHostClient argv workdir token → ClientFits w agentArgs argv token := by
  have hw := agree_of_reachable hinj h
  refine ⟨fun c hc hcodex => ?_,
    fun _ _ _ _ _ hexec e he _ _ _ hop => clientFits_of_connect (hw.of_held []) hexec he hop⟩
  obtain ⟨root, hmem, hstarted⟩ := hw.started c hc (isSome_kind hcodex)
  exact ⟨root, hmem, hstarted.rootOf, hw.agrees c hc hcodex root hstarted.rootOf id⟩

/-! ### A run -/

def codexStart : StartArgs := ⟨.codex, .none, false, ⟨none, none⟩, .utf8 demoRoot, []⟩

/-- A Codex server is started in the demo repository. -/
def codexWorld : WorldState := ((start codexStart).run oblige demoWorld).2.1

theorem within_demo : Within {demoRoot} demoHost := by
  intro directory workspace h
  unfold resolveWorkspaceIdentity at h
  obtain ⟨target, -, h⟩ := bind_eq_ok.1 h
  obtain ⟨gitRoot, htop, h⟩ := bind_eq_ok.1 h
  obtain ⟨root, hroot, h⟩ := bind_eq_ok.1 h
  obtain ⟨_, -, h⟩ := bind_eq_ok.1 h
  have hgit : demoHost.resolveToplevel target = .ok demoRoot := by rfl
  have hself : demoHost.canonicalizeUtf8Path demoRoot = .ok demoRoot := by rfl
  obtain rfl : gitRoot = demoRoot := Except.ok.inj (htop.symm.trans hgit)
  obtain rfl : root = demoRoot := Except.ok.inj (hroot.symm.trans hself)
  split_ifs at h
  cases h
  rfl

theorem reachable_codex : Reachable (tokenRuns {demoRoot}) codexWorld := by
  have hinit : (tokenRuns {demoRoot}).init demoWorld :=
    ⟨within_demo, fun _ hc => absurd hc List.not_mem_nil⟩
  have hstep : (tokenRuns {demoRoot}).step demoWorld (some (.start codexStart)) codexWorld :=
    ⟨_, _, trivial, exec_run (fun w => Eq.refl w) (start codexStart) demoWorld⟩
  exact .step (.init hinit) hstep

theorem token_agreement_demo :
    (codexWorld.podman.containers.any fun c => c.kind = some .managed &&
      (SessionMetadata.mk c.labels).runtimeKind = some .codex) = true ∧
    ∀ c ∈ codexWorld.podman.containers, IsManagedCodex c → ∃ root ∈ ({demoRoot} : Set Utf8Path),
      rootOf c = some root ∧ HasToken codexWorld (gitRootDigest64 root) c.command :=
  ⟨by decide +kernel, (token_agreement {demoRoot} (Set.injOn_singleton _ _) codexWorld
    reachable_codex).1⟩

end Agentbox.Commands.TokenAgreement
