import Agentbox.Config.Load
import Agentbox.SshSigning.HostPassthrough
import Agentbox.SshSigning.RemoteHost

/-! # The mounted known hosts

`prepare_with` of `known_hosts/mod.rs` and `host_known_hosts_lines` of `known_hosts/lookup.rs`. The
lookups run over the hosts, the files of each host and the names of each host. One that fails, or
finds no `ssh-keygen`, ends the search with no line at all, and the configured lines are mounted
alone, as the warning says; a failure of `ssh -G` only changes the files that are searched. -/

namespace Agentbox.SshSigning.KnownHosts

open Agentbox.Base.Errors Agentbox.Base.Path Agentbox.Commands.HostCalls
  Agentbox.Config.Load Agentbox.Lib.FirstOccurrences Agentbox.Runtime.Spec
  Agentbox.SshSigning.HostPassthrough Agentbox.SshSigning.RemoteHost

structure SshHostConfig where
  lookupHosts : List String
  knownHostsFiles : List Utf8Path

/-- `SshConfigLookupError` and `KnownHostsLookupError`. -/
inductive LookupError
  | unavailable (reason : String)
  | failed (reason : String)
  deriving DecidableEq

/-- What the lookups ask of the host. -/
structure LookupHost where
  remoteUrls : Except Error (List String)
  /-- `$HOME`. -/
  home : Option Utf8Path
  isFile : Utf8Path → Bool
  /-- `ssh -G`. -/
  sshConfig : SshRemoteHost → Except LookupError SshHostConfig
  /-- `ssh-keygen -F name -f file`; no match is an empty list. -/
  lookup : String → Utf8Path → Except LookupError (List String)
  /-- The path of a temporary file with these contents. -/
  writeFile : String → Except Error String

section
variable (host : LookupHost)

/-! ### The files and names of a remote -/

/-- `known_hosts_files`. -/
def knownHostsFiles : List Utf8Path :=
  match host.home.filter fun home => home.asStr ≠ "" with
  | none => []
  | some home => (["known_hosts", "known_hosts2"].map fun name =>
      (home.join ⟨".ssh"⟩).join ⟨name⟩).filter host.isFile

def fallbackSshHostConfig (remote : SshRemoteHost) : SshHostConfig :=
  ⟨[remote.knownHostsName], knownHostsFiles host⟩

def fallbackWarning (remote : SshRemoteHost) : LookupError → String
  | .unavailable reason =>
    "ssh is unavailable for SSH config lookup for remote host `" ++ remote.knownHostsName ++ "` (" ++
      reason ++ "); falling back to $HOME/.ssh/known_hosts and $HOME/.ssh/known_hosts2"
  | .failed reason =>
    "ssh -G lookup failed for SSH remote host `" ++ remote.knownHostsName ++ "` (" ++ reason ++
      "); falling back to $HOME/.ssh/known_hosts and $HOME/.ssh/known_hosts2"

/-- The configuration that a remote is looked up with, and the warnings of `ssh -G`. -/
def remoteConfig (remote : SshRemoteHost) : SshHostConfig × List String :=
  match host.sshConfig remote with
  | .ok config => (config, [])
  | .error error => (fallbackSshHostConfig host remote, [fallbackWarning remote error])

/-! ### The lookups -/

def lookupWarning (remote : SshRemoteHost) : LookupError → String
  | .unavailable reason =>
    "ssh-keygen is unavailable for SSH known_hosts lookup (" ++ reason ++
      "); continuing with config-provided knownHosts only"
  | .failed reason =>
    "ssh-keygen lookup failed for SSH remote host `" ++ remote.knownHostsName ++ "` (" ++ reason ++
      "); continuing with config-provided knownHosts only"

def missingWarning (remote : SshRemoteHost) : String :=
  "no known_hosts entry found for SSH remote host `" ++ remote.knownHostsName ++
    "`; Git SSH host verification may fail"

/-- A loop that extends a list by what each item gives, and returns at the first error. -/
def extendAll {α β ε : Type} (f : α → Except ε (List β)) : List α → Except ε (List β)
  | [] => .ok []
  | a :: l => do
    let found ← f a
    let rest ← extendAll f l
    return found ++ rest

/-- The loops over the files and, for each, the names. -/
def lookupFiles (config : SshHostConfig) : Except LookupError (List String) :=
  extendAll (fun file => extendAll (fun name => host.lookup name file) config.lookupHosts)
    config.knownHostsFiles

/-- The loop over the remotes: the lines, or `none` after a failure, and the warnings. -/
def lookupRemotes : List SshRemoteHost → Option (List String) × List String
  | [] => (some [], [])
  | remote :: remotes =>
    let (config, configWarnings) := remoteConfig host remote
    match lookupFiles host config with
    | .error error => (none, configWarnings ++ [lookupWarning remote error])
    | .ok found =>
      let warnings := if found = [] then [missingWarning remote] else []
      let (lines, rest) := lookupRemotes remotes
      (lines.map (found ++ ·), configWarnings ++ warnings ++ rest)

def hostKnownHostsLines (remotes : List SshRemoteHost) : List String × List String :=
  if remotes = [] then ([], [])
  else ((lookupRemotes host remotes).1.getD [], (lookupRemotes host remotes).2)

def combinedKnownHostsLines (hostLines configLines : List String) : List String :=
  pushNew [] (hostLines ++ configLines)

/-! ### The mounted file -/

structure PreparedKnownHosts where
  passthrough : Passthrough
  contents : String

/-- `write_temporary_known_hosts`: each line with its newline. -/
def fileContents (lines : List String) : String := String.join (lines.map (· ++ "\n"))

def knownHostsMount (source : String) : Passthrough :=
  ⟨[⟨.bind, source, CONTAINER_KNOWN_HOSTS, true⟩], .ofList [(GIT_SSH_COMMAND_ENV, GIT_SSH_COMMAND)]⟩

/-- The end of `prepare_with`: the file with the lines, unless there are none. -/
def writeKnownHosts (lines : List String) : Option PreparedKnownHosts × List String :=
  if lines = [] then (none, [])
  else
    match host.writeFile (fileContents lines) with
    | .ok source => (some ⟨knownHostsMount source, fileContents lines⟩, [])
    | .error error => (none, ["failed to prepare temporary SSH known_hosts file: " ++
        error.display ++ "; Git SSH host verification passthrough disabled"])

/-- The SSH remotes that are detected, with a warning where Git does not list its remotes. -/
def remoteHosts : List SshRemoteHost × List String :=
  match host.remoteUrls with
  | .ok urls => (sshRemoteHosts urls, [])
  | .error error => ([], ["failed to inspect Git remotes for SSH known_hosts passthrough: " ++
      error.display ++ "; continuing without host known_hosts entries"])

/-- The lines that `prepare_with` has to write. -/
def mountedLines (config : AgentboxConfig) : List String :=
  combinedKnownHostsLines (hostKnownHostsLines host (remoteHosts host).1).1 config.knownHosts

/-- `prepare_with`, after the config is loaded. -/
def prepareWith (config : AgentboxConfig) : Option PreparedKnownHosts × List String :=
  let (prepared, writeWarnings) := writeKnownHosts host (mountedLines host config)
  (prepared, (remoteHosts host).2 ++ (hostKnownHostsLines host (remoteHosts host).1).2 ++
    writeWarnings)

/-! ### What the lookups come to -/

/-- The lookups of a remote in their order: files first, then names. -/
def remoteLookups (remote : SshRemoteHost) : List (String × Utf8Path) :=
  (remoteConfig host remote).1.knownHostsFiles.flatMap fun file =>
    (remoteConfig host remote).1.lookupHosts.map fun name => (name, file)

def lookups (remotes : List SshRemoteHost) : List (String × Utf8Path) :=
  remotes.flatMap (remoteLookups host)

/-- The lookup fails, or finds no `ssh-keygen`. -/
def Fails (q : String × Utf8Path) : Prop := (host.lookup q.1 q.2).isOk = false

instance (q : String × Utf8Path) : Decidable (Fails host q) := inferInstanceAs (Decidable (_ = _))

/-- The lines of a lookup that succeeds. -/
def foundLines (q : String × Utf8Path) : List String := (host.lookup q.1 q.2).toOption.getD []

/-- A warning names the remote and the error of a lookup that failed. -/
def WarnsOfFailure (remotes : List SshRemoteHost) (warnings : List String) : Prop :=
  ∃ remote ∈ remotes, ∃ q ∈ remoteLookups host remote, ∃ error,
    host.lookup q.1 q.2 = .error error ∧ lookupWarning remote error ∈ warnings

/-- What is asked of the mounted lines: all that a lookup returned, and then the configured ones,
each once. -/
def allLines (config : AgentboxConfig) : List String :=
  ((lookups host (remoteHosts host).1).flatMap (foundLines host) ++ config.knownHosts).eraseDups

end

/-- The error of a loop is that of one of its items. -/
theorem extendAll_eq_error {α β ε : Type} {f : α → Except ε (List β)} {e : ε} : ∀ {l : List α},
    extendAll f l = .error e → ∃ a ∈ l, f a = .error e
  | a :: l, h => by
    rw [extendAll] at h
    rcases hf : f a with e' | found
    · rw [hf] at h
      cases h
      exact ⟨a, List.mem_cons_self, hf⟩
    · rw [hf] at h
      rcases hrest : extendAll f l with e' | rest
      · rw [hrest] at h
        cases h
        obtain ⟨b, hb, hfb⟩ := extendAll_eq_error hrest
        exact ⟨b, List.mem_cons_of_mem _ hb, hfb⟩
      · rw [hrest] at h
        cases h

theorem toOption_extendAll {α β ε : Type} (f : α → Except ε (List β)) : ∀ l : List α,
    (extendAll f l).toOption = if ∃ a ∈ l, (f a).isOk = false then none
      else some (l.flatMap fun a => (f a).toOption.getD [])
  | [] => by simp [extendAll, Except.toOption]
  | a :: l => by
    have ih := toOption_extendAll f l
    cases hf : f a with
    | error e =>
      have hfail : ∃ b ∈ a :: l, (f b).isOk = false := ⟨a, List.mem_cons_self .., by rw [hf]; rfl⟩
      rw [if_pos hfail, extendAll, hf]
      rfl
    | ok found =>
      have hiff : (∃ b ∈ a :: l, (f b).isOk = false) ↔ ∃ b ∈ l, (f b).isOk = false := by
        simp [hf, Except.isOk, Except.toBool]
      rw [extendAll, hf, List.flatMap_cons, hf, if_congr hiff rfl rfl]
      cases hrest : extendAll f l with
      | error e =>
        rw [hrest] at ih
        split_ifs at ih ⊢ with h
        · rfl
        · cases ih
      | ok rest =>
        rw [hrest] at ih
        split_ifs at ih ⊢ with h
        · cases ih
        · rw [← Option.some.inj ih]
          rfl

theorem isOk_eq_false_iff {ε α : Type} {x : Except ε α} : x.isOk = false ↔ x.toOption = none := by
  cases x <;> simp [Except.isOk, Except.toBool, Except.toOption]

variable {host : LookupHost}

/-- **The lookups of one remote** fail together or return all of their lines. -/
theorem toOption_lookupFiles (remote : SshRemoteHost) :
    (lookupFiles host (remoteConfig host remote).1).toOption =
      if ∃ q ∈ remoteLookups host remote, Fails host q then none
      else some ((remoteLookups host remote).flatMap (foundLines host)) := by
  have hfile : ∀ file, (extendAll (fun name => host.lookup name file)
      (remoteConfig host remote).1.lookupHosts).toOption =
      if ∃ name ∈ (remoteConfig host remote).1.lookupHosts, Fails host (name, file) then none
      else some ((remoteConfig host remote).1.lookupHosts.flatMap fun name =>
        foundLines host (name, file)) := fun file => toOption_extendAll _ _
  have hiff : (∃ file ∈ (remoteConfig host remote).1.knownHostsFiles,
      (extendAll (fun name => host.lookup name file)
        (remoteConfig host remote).1.lookupHosts).isOk = false) ↔
      ∃ q ∈ remoteLookups host remote, Fails host q := by
    simp only [isOk_eq_false_iff, hfile, ite_eq_left_iff, reduceCtorEq, imp_false, not_not]
    constructor
    · rintro ⟨file, hf, name, hn, hfail⟩
      exact ⟨(name, file), List.mem_flatMap.2 ⟨file, hf, List.mem_map.2 ⟨name, hn, rfl⟩⟩, hfail⟩
    · rintro ⟨q, hq, hfail⟩
      obtain ⟨file, hf, hq⟩ := List.mem_flatMap.1 hq
      obtain ⟨name, hn, rfl⟩ := List.mem_map.1 hq
      exact ⟨file, hf, name, hn, hfail⟩
  rw [lookupFiles, toOption_extendAll, if_congr hiff rfl rfl]
  by_cases hfail : ∃ q ∈ remoteLookups host remote, Fails host q
  · rw [if_pos hfail, if_pos hfail]
  · rw [if_neg hfail, if_neg hfail, remoteLookups, List.flatMap_assoc]
    congr 1
    refine List.flatMap_congr fun file hf => ?_
    have hnone : ¬ ∃ name ∈ (remoteConfig host remote).1.lookupHosts, Fails host (name, file) := by
      rintro ⟨name, hn, h⟩
      exact hfail ⟨(name, file), List.mem_flatMap.2 ⟨file, hf, List.mem_map.2 ⟨name, hn, rfl⟩⟩, h⟩
    rw [hfile, if_neg hnone, List.flatMap_map]
    rfl

theorem lookupRemotes_fst : ∀ remotes : List SshRemoteHost,
    (lookupRemotes host remotes).1 =
      if ∃ q ∈ lookups host remotes, Fails host q then none
      else some ((lookups host remotes).flatMap (foundLines host))
  | [] => by simp [lookupRemotes, lookups]
  | remote :: remotes => by
    have ih := lookupRemotes_fst remotes
    have hone := @toOption_lookupFiles host remote
    have hiff : (∃ q ∈ lookups host (remote :: remotes), Fails host q) ↔
        (∃ q ∈ remoteLookups host remote, Fails host q) ∨
          ∃ q ∈ lookups host remotes, Fails host q := by
      simp only [lookups, List.flatMap_cons, List.mem_append, or_and_right, exists_or]
    rw [if_congr hiff rfl rfl, lookupRemotes]
    cases hfiles : lookupFiles host (remoteConfig host remote).1 with
    | error error =>
      rw [hfiles] at hone
      split_ifs at hone with hfail
      · rw [if_pos (.inl hfail)]
        simp only [hfiles]
      · cases hone
    | ok found =>
      rw [hfiles] at hone
      split_ifs at hone with hfail
      · cases hone
      · simp only [hfiles, ih]
        by_cases hrest : ∃ q ∈ lookups host remotes, Fails host q
        · rw [if_pos hrest, if_pos (.inr hrest), Option.map_none]
        · rw [if_neg hrest, if_neg (not_or.2 ⟨hfail, hrest⟩), Option.map_some, Option.some.inj hone]
          simp only [lookups, List.flatMap_cons, List.flatMap_append]

/-- The error of the lookups of a remote is that of one of them. -/
theorem exists_lookup_of_error {remote : SshRemoteHost} {error : LookupError}
    (h : lookupFiles host (remoteConfig host remote).1 = .error error) :
    ∃ q ∈ remoteLookups host remote, host.lookup q.1 q.2 = .error error := by
  obtain ⟨file, hfile, h⟩ := extendAll_eq_error h
  obtain ⟨name, hname, h⟩ := extendAll_eq_error h
  exact ⟨(name, file), List.mem_flatMap.2 ⟨file, hfile, List.mem_map.2 ⟨name, hname, rfl⟩⟩, h⟩

theorem lookupRemotes_warns : ∀ remotes : List SshRemoteHost,
    (lookupRemotes host remotes).1 = none →
      WarnsOfFailure host remotes (lookupRemotes host remotes).2
  | [], h => nomatch h
  | remote :: remotes, h => by
    have ih := lookupRemotes_warns remotes
    rw [lookupRemotes] at h ⊢
    cases hfiles : lookupFiles host (remoteConfig host remote).1 with
    | error error =>
      obtain ⟨q, hq, herror⟩ := exists_lookup_of_error hfiles
      refine ⟨remote, List.mem_cons_self .., q, hq, error, herror, ?_⟩
      simp only [hfiles]
      exact List.mem_append_right _ (List.mem_singleton_self _)
    | ok found =>
      simp only [hfiles, Option.map_eq_none_iff] at h ⊢
      obtain ⟨other, hmem, q, hq, error, herror, hwarn⟩ := ih h
      exact ⟨other, List.mem_cons_of_mem _ hmem, q, hq, error, herror,
        List.mem_append_right _ hwarn⟩

/-- The lines of the host: all that the lookups returned, or none. -/
theorem hostKnownHostsLines_fst (remotes : List SshRemoteHost) :
    (hostKnownHostsLines host remotes).1 =
      if ∃ q ∈ lookups host remotes, Fails host q then []
      else (lookups host remotes).flatMap (foundLines host) := by
  unfold hostKnownHostsLines
  by_cases hnil : remotes = []
  · rw [if_pos hnil, hnil]
    simp [lookups]
  · rw [if_neg hnil, lookupRemotes_fst]
    split_ifs <;> rfl

theorem hostKnownHostsLines_warns {remotes : List SshRemoteHost}
    (h : ∃ q ∈ lookups host remotes, Fails host q) :
    WarnsOfFailure host remotes (hostKnownHostsLines host remotes).2 := by
  have hne : remotes ≠ [] := by
    rintro rfl
    obtain ⟨q, hq, -⟩ := h
    exact List.not_mem_nil hq
  rw [hostKnownHostsLines, if_neg hne]
  exact lookupRemotes_warns remotes (by rw [lookupRemotes_fst, if_pos h])

/-- What is mounted are the lines, if there are any and they can be written. -/
theorem writeKnownHosts_contents (lines : List String) :
    (writeKnownHosts host lines).1.map PreparedKnownHosts.contents =
      if lines = [] then none
      else (host.writeFile (fileContents lines)).toOption.map fun _ => fileContents lines := by
  unfold writeKnownHosts
  split_ifs with hnil
  · rfl
  · cases host.writeFile (fileContents lines) <;> rfl

theorem mountedLines_eq (config : AgentboxConfig) : mountedLines host config =
    ((if ∃ q ∈ lookups host (remoteHosts host).1, Fails host q then []
      else (lookups host (remoteHosts host).1).flatMap (foundLines host)) ++
        config.knownHosts).eraseDups := by
  rw [mountedLines, combinedKnownHostsLines, pushNew_nil, hostKnownHostsLines_fst]

/-- **The mounted lines.** They are all the lines that the lookups returned and then the configured
ones exactly when no lookup fails, or what the others returned is configured first anyway. After a
failure they are the configured ones, and a warning names the failure. -/
theorem prepareWith_mounts (host : LookupHost) (config : AgentboxConfig) :
    ((prepareWith host config).1.map PreparedKnownHosts.contents =
      if mountedLines host config = [] then none
      else (host.writeFile (fileContents (mountedLines host config))).toOption.map
        fun _ => fileContents (mountedLines host config)) ∧
    (mountedLines host config).Nodup ∧
    (mountedLines host config = allLines host config ↔
      ((∃ q ∈ lookups host (remoteHosts host).1, Fails host q) →
        ((lookups host (remoteHosts host).1).flatMap (foundLines host)).eraseDups <+:
          config.knownHosts.eraseDups)) ∧
    ((∃ q ∈ lookups host (remoteHosts host).1, Fails host q) →
      mountedLines host config = config.knownHosts.eraseDups ∧
        WarnsOfFailure host (remoteHosts host).1 (prepareWith host config).2) := by
  refine ⟨writeKnownHosts_contents _, ?_, ?_, fun hfail => ⟨?_, ?_⟩⟩
  · rw [mountedLines_eq]
    exact nodup_eraseDups _
  · rw [mountedLines_eq, allLines]
    by_cases hfail : ∃ q ∈ lookups host (remoteHosts host).1, Fails host q
    · rw [if_pos hfail, List.nil_append, eq_comm, eraseDups_append_eq_iff]
      exact ⟨fun h _ => h, fun h => h hfail⟩
    · rw [if_neg hfail]
      exact ⟨fun _ h => absurd h hfail, fun _ => rfl⟩
  · rw [mountedLines_eq, if_pos hfail, List.nil_append]
  · obtain ⟨remote, hmem, q, hq, error, herror, hwarn⟩ := hostKnownHostsLines_warns hfail
    exact ⟨remote, hmem, q, hq, error, herror,
      List.mem_append_left _ (List.mem_append_right _ hwarn)⟩

/-- Two remotes, of which the second is looked up without success. -/
def demoHost : LookupHost where
  remoteUrls := .ok ["git@github.com:owner/repo.git", "git@example.com:owner/repo.git"]
  home := none
  isFile _ := true
  sshConfig remote := .ok ⟨[remote.configHost], [⟨"/home/u/.ssh/known_hosts"⟩]⟩
  lookup name _ :=
    if name = "github.com" then .ok ["github.com ssh-ed25519 AAAA"]
    else .error (.failed "exit status: 255")
  writeFile _ := .ok "/tmp/known_hosts"

/-- **Found lines that are not mounted**: the lookup for `github.com` returned a line, the one for
`example.com` failed, and no file is mounted at all. -/
theorem demoHost_drops : allLines demoHost {} = ["github.com ssh-ed25519 AAAA"] ∧
    mountedLines demoHost {} = [] ∧ ((prepareWith demoHost {}).1.map PreparedKnownHosts.contents) =
      none := by
  have hdrop : mountedLines demoHost {} = [] := by decide +kernel
  refine ⟨by decide +kernel, hdrop, ?_⟩
  rw [prepareWith, writeKnownHosts_contents, if_pos hdrop]

/-- The same remotes where both lookups succeed. -/
def demoFound : LookupHost :=
  { demoHost with lookup := fun name _ => .ok [name ++ " ssh-ed25519 AAAA"] }

theorem prepareWith_mounts_demo : mountedLines demoFound {} =
    ["github.com ssh-ed25519 AAAA", "example.com ssh-ed25519 AAAA"] := by
  have hnone : ¬ ∃ q ∈ lookups demoFound (remoteHosts demoFound).1, Fails demoFound q := by
    rintro ⟨q, -, hq⟩
    exact Bool.noConfusion hq
  rw [(prepareWith_mounts demoFound {}).2.2.1.2 fun h => absurd h hnone]
  decide +kernel

end Agentbox.SshSigning.KnownHosts
