import Agentbox.Lib.Settings
import Agentbox.Runtime.HttpProbe
import Agentbox.SshSigning.KnownHosts

/-! # The lookups of known hosts

`known_hosts/lookup`: what `ssh -G` and `ssh-keygen -F` are asked for, and what is read of their
output. A name or a port is that of the last line for it; the files are all that the lines name.

* `parseSshConfigOutput_eq`: the names and the files, as functions of the settings.
* `known_hosts_exact`: the lines that are mounted, by what the two programs print. -/

namespace Agentbox.SshSigning.SshLookups

open Agentbox.Base.Text Agentbox.Base.Errors Agentbox.Base.Path Agentbox.Config.Load
  Agentbox.Lib.FirstOccurrences Agentbox.Lib.Settings Agentbox.Runtime.HttpProbe
  Agentbox.SshSigning.RemoteHost Agentbox.SshSigning.KnownHosts

/-! ### The output of `ssh -G` -/

/-- The rest of `str::lines`, inside a line that is given backwards. -/
def linesFrom : List Char → List Char → List String
  | [], [] => []
  | c :: line, [] => [String.ofList (c :: line).reverse]
  | line, '\n' :: l =>
    let line := if line.head? = some '\r' then line.tail else line
    String.ofList line.reverse :: linesFrom [] l
  | line, c :: l => linesFrom (c :: line) l

/-- `str::lines`. -/
def lines (text : String) : List String := linesFrom [] text.toList

/-- `str::split_whitespace`. -/
def words (text : String) : List String := (splitWhitespace text.toList).map String.ofList

/-- `split_once(char::is_whitespace)`. -/
def splitOnceWhitespace (text : String) : Option (String × String) :=
  match text.toList.dropWhile fun c => !isWhitespace c with
  | [] => none
  | _ :: rest =>
    some (String.ofList (text.toList.takeWhile fun c => !isWhitespace c), String.ofList rest)

/-- A line as a key in lower case with its values. -/
def setting (line : String) : Option (String × List String) :=
  (splitOnceWhitespace (trim line)).map fun (key, values) =>
    (toAsciiLowercase key, words (trim values))

def settings (output : String) : List (String × List String) := (lines output).filterMap setting

structure SshConfigState where
  hostname : Option String
  port : Option Nat
  hostKeyAlias : Option String
  knownHostsFiles : List Utf8Path

def firstSshConfigValue (values : List String) : Option String := values.find? (· ≠ "none")

def readPort (values : List String) : Option Nat :=
  (firstSshConfigValue values).bind fun value => parsePort value.toList

def isFilesKey (key : String) : Bool :=
  key == "userknownhostsfile" || key == "globalknownhostsfile"

section
variable (isFile : Utf8Path → Bool)

def pushKnownHostsFile (files : List Utf8Path) (value : String) : List Utf8Path :=
  if value ≠ "none" ∧ isFile ⟨value⟩ = true then pushUnique files ⟨value⟩ else files

/-- The body of the loop, after a line is split. -/
def readSetting (state : SshConfigState) (setting : String × List String) : SshConfigState :=
  if setting.1 == "hostname" then { state with hostname := firstSshConfigValue setting.2 }
  else if setting.1 == "port" then { state with port := readPort setting.2 }
  else if setting.1 == "hostkeyalias" then
    { state with hostKeyAlias := firstSshConfigValue setting.2 }
  else if isFilesKey setting.1 then
    { state with
      knownHostsFiles := setting.2.foldl (pushKnownHostsFile isFile) state.knownHostsFiles }
  else state

end

def pushUniqueHost (hosts : List String) (host : Option String) : List String :=
  match host.filter (· ≠ "") with
  | none => hosts
  | some host => pushUnique hosts host

def sshConfigLookupHosts (remote : SshRemoteHost) (hostname : Option String) (port : Option Nat)
    (hostKeyAlias : Option String) : List String :=
  let hosts := pushUniqueHost [] hostKeyAlias
  let hosts := pushUniqueHost hosts
    (some (formatKnownHost (hostname.getD remote.configHost) port))
  pushUniqueHost hosts (some remote.knownHostsName)

def parseSshConfigOutput (isFile : Utf8Path → Bool) (output : String) (remote : SshRemoteHost) :
    SshHostConfig :=
  let state := (settings output).foldl (readSetting isFile) ⟨none, remote.port, none, []⟩
  ⟨sshConfigLookupHosts remote state.hostname state.port state.hostKeyAlias, state.knownHostsFiles⟩

/-! ### The programs -/

/-- The end of a program: its code, unless a signal ended it, and its output. -/
inductive CommandRun
  | unavailable (reason : String)
  | failed (reason : String)
  | ended (code : Option Int) (stdout detail : String)

/-- What the lookups ask of the system. -/
structure SshSystem where
  remoteUrls : Except Error (List String)
  home : Option Utf8Path
  isFile : Utf8Path → Bool
  ssh : List String → CommandRun
  sshKeygen : List String → CommandRun
  writeFile : String → Except Error String

def sshArgs (remote : SshRemoteHost) : List String :=
  "-G" :: (remote.port.elim [] fun port => ["-p", Nat.repr port]) ++ ["--", remote.configHost]

def sshKeygenArgs (name : String) (file : Utf8Path) : List String := ["-F", name, "-f", file.asStr]

/-- `parse_ssh_keygen_lines`. -/
def parseSshKeygenLines (output : String) : List String :=
  (lines output).filter fun line => trim line ≠ "" && !startsWith (trim line) "#"

section
variable (system : SshSystem)

def sshConfigLookup (remote : SshRemoteHost) : Except LookupError SshHostConfig :=
  match system.ssh (sshArgs remote) with
  | .unavailable reason => .error (.unavailable reason)
  | .failed reason => .error (.failed reason)
  | .ended code stdout detail =>
    if code = some 0 then .ok (parseSshConfigOutput system.isFile stdout remote)
    else .error (.failed detail)

def sshKeygenLookup (name : String) (file : Utf8Path) : Except LookupError (List String) :=
  match system.sshKeygen (sshKeygenArgs name file) with
  | .unavailable reason => .error (.unavailable reason)
  | .failed reason => .error (.failed reason)
  | .ended code stdout detail =>
    if code = some 0 then .ok (parseSshKeygenLines stdout)
    else if code = some 1 then .ok []
    else .error (.failed detail)

def lookupHost : LookupHost where
  remoteUrls := system.remoteUrls
  home := system.home
  isFile := system.isFile
  sshConfig := sshConfigLookup system
  lookup := sshKeygenLookup system
  writeFile := system.writeFile

end

/-! ### What the settings come to -/

/-- The values of the last line for a key. -/
def lastFor (key : String) (settings : List (String × List String)) : Option (List String) :=
  lastValue (· == key) settings

/-- The names that a remote is searched for, by the settings of `ssh` for it. -/
def searchedNames (remote : SshRemoteHost) (settings : List (String × List String)) :
    List String :=
  ((((lastFor "hostkeyalias" settings).bind firstSshConfigValue).toList ++
    [formatKnownHost
        (((lastFor "hostname" settings).bind firstSshConfigValue).getD remote.configHost)
        (((lastFor "port" settings).map readPort).getD remote.port),
      remote.knownHostsName]).filter (· ≠ "")).eraseDups

/-- The files that are searched: all that the settings name, if they are there. -/
def searchedFiles (isFile : Utf8Path → Bool) (settings : List (String × List String)) :
    List Utf8Path :=
  (((((settings.filter fun setting => isFilesKey setting.1).flatMap Prod.snd).filter
    (· ≠ "none")).map Utf8Path.mk).filter isFile).eraseDups

variable {isFile : Utf8Path → Bool} {remote : SshRemoteHost}

theorem pushUniqueHost_some (hosts : List String) (host : String) :
    pushUniqueHost hosts (some host) = if host = "" then hosts else pushUnique hosts host := by
  unfold pushUniqueHost
  by_cases hhost : host = ""
  · rw [if_pos hhost, Option.filter_some, if_neg (by simp [hhost])]
  · rw [if_neg hhost, Option.filter_some, if_pos (by simp [hhost])]

theorem foldl_pushUniqueHost : ∀ l hosts : List String,
    l.foldl (fun hosts host => pushUniqueHost hosts (some host)) hosts =
      (l.filter (· ≠ "")).foldl pushUnique hosts
  | [], _ => rfl
  | host :: l, hosts => by
    rw [List.foldl_cons, foldl_pushUniqueHost l, pushUniqueHost_some]
    by_cases hhost : host = ""
    · simp [hhost]
    · simp [hhost]

theorem sshConfigLookupHosts_eq (remote : SshRemoteHost) (hostname : Option String)
    (port : Option Nat) (hostKeyAlias : Option String) :
    sshConfigLookupHosts remote hostname port hostKeyAlias =
      ((hostKeyAlias.toList ++ [formatKnownHost (hostname.getD remote.configHost) port,
        remote.knownHostsName]).filter (· ≠ "")).eraseDups := by
  rw [← foldl_pushUnique, ← foldl_pushUniqueHost]
  rcases hostKeyAlias with _ | name <;> rfl

theorem foldl_pushKnownHostsFile : ∀ (values : List String) (files : List Utf8Path),
    values.foldl (pushKnownHostsFile isFile) files =
      (((values.filter (· ≠ "none")).map Utf8Path.mk).filter isFile).foldl pushUnique files
  | [], _ => rfl
  | value :: values, files => by
    rw [List.foldl_cons, foldl_pushKnownHostsFile values, pushKnownHostsFile]
    by_cases hnone : value = "none"
    · simp [hnone]
    · by_cases hfile : isFile ⟨value⟩ = true
      · simp [hnone, hfile]
      · simp [hnone, hfile]

/-- **The output of `ssh -G`.** The last line of a key counts, and all lines that name files. -/
theorem parseSshConfigOutput_eq (isFile : Utf8Path → Bool) (output : String)
    (remote : SshRemoteHost) : parseSshConfigOutput isFile output remote =
      ⟨searchedNames remote (settings output), searchedFiles isFile (settings output)⟩ := by
  have hhostname := @foldl_last _ _ _ _ (readSetting isFile) SshConfigState.hostname
    (· == "hostname") firstSshConfigValue
    (fun s k v hk => by simp only [readSetting, hk, if_true])
    (fun s k v hk => by
      simp only [readSetting, hk, Bool.false_eq_true, if_false]
      split_ifs <;> rfl) (settings output) ⟨none, remote.port, none, []⟩
  have hport := @foldl_last _ _ _ _ (readSetting isFile) SshConfigState.port (· == "port") readPort
    (fun s k v hk => by rw [eq_of_beq hk]; rfl)
    (fun s k v hk => by
      simp only [readSetting, hk, Bool.false_eq_true, if_false]
      split_ifs <;> rfl) (settings output) ⟨none, remote.port, none, []⟩
  have halias := @foldl_last _ _ _ _ (readSetting isFile) SshConfigState.hostKeyAlias
    (· == "hostkeyalias") firstSshConfigValue
    (fun s k v hk => by rw [eq_of_beq hk]; rfl)
    (fun s k v hk => by
      simp only [readSetting, hk, Bool.false_eq_true, if_false]
      split_ifs <;> rfl) (settings output) ⟨none, remote.port, none, []⟩
  have hfiles := @foldl_extend _ _ _ _ (readSetting isFile) SshConfigState.knownHostsFiles
    isFilesKey (pushKnownHostsFile isFile)
    (fun s k v hk => by
      unfold isFilesKey at hk
      rw [Bool.or_eq_true, beq_iff_eq, beq_iff_eq] at hk
      obtain rfl | rfl := hk <;> rfl)
    (fun s k v hk => by
      simp only [readSetting, hk, Bool.false_eq_true, if_false]
      split_ifs <;> rfl) (settings output) ⟨none, remote.port, none, []⟩
  have hflatten : ∀ value : Option (List String), (value.map firstSshConfigValue).getD none =
      value.bind firstSshConfigValue := by
    intro value
    cases value <;> rfl
  simp only [parseSshConfigOutput, sshConfigLookupHosts_eq, hhostname, hport, halias, hfiles,
    foldl_pushKnownHostsFile, foldl_pushUnique, hflatten]
  rfl

variable {system : SshSystem}

/-- The program prints the line for a name in a file. -/
def Prints (system : SshSystem) (name : String) (file : Utf8Path) (line : String) : Prop :=
  ∃ stdout detail, system.sshKeygen (sshKeygenArgs name file) = .ended (some 0) stdout detail ∧
    line ∈ parseSshKeygenLines stdout

theorem mem_foundLines {name : String} {file : Utf8Path} {line : String} :
    line ∈ foundLines (lookupHost system) (name, file) ↔ Prints system name file line := by
  have hlookup : (lookupHost system).lookup name file = sshKeygenLookup system name file := rfl
  unfold foundLines Prints
  rw [hlookup, sshKeygenLookup]
  rcases system.sshKeygen (sshKeygenArgs name file) with reason | reason | ⟨code, stdout, detail⟩
  · simp [Except.toOption]
  · simp [Except.toOption]
  · by_cases hzero : code = some 0
    · simp [hzero, Except.toOption]
    · by_cases hone : code = some 1
      · simp [hone, Except.toOption]
      · simp [hzero, hone, Except.toOption]

/-- What a remote is searched with, where `ssh -G` ends well. -/
theorem remoteConfig_of_ended {stdout detail : String}
    (h : system.ssh (sshArgs remote) = .ended (some 0) stdout detail) :
    remoteConfig (lookupHost system) remote =
      (⟨searchedNames remote (settings stdout), searchedFiles system.isFile (settings stdout)⟩,
        []) := by
  have hlookup : (lookupHost system).sshConfig remote = .ok
      ⟨searchedNames remote (settings stdout), searchedFiles system.isFile (settings stdout)⟩ := by
    rw [← parseSshConfigOutput_eq]
    change sshConfigLookup system remote = _
    rw [sshConfigLookup, h]
    rfl
  rw [remoteConfig, hlookup]

/-- A name and a file that are searched for a remote. -/
def Searches (system : SshSystem) (remote : SshRemoteHost) (name : String) (file : Utf8Path) :
    Prop :=
  (∃ stdout detail, system.ssh (sshArgs remote) = .ended (some 0) stdout detail ∧
    name ∈ searchedNames remote (settings stdout) ∧
      file ∈ searchedFiles system.isFile (settings stdout)) ∨
  ((∀ stdout detail, system.ssh (sshArgs remote) ≠ .ended (some 0) stdout detail) ∧
    name = remote.knownHostsName ∧ file ∈ knownHostsFiles (lookupHost system))

theorem mem_remoteLookups {name : String} {file : Utf8Path} :
    (name, file) ∈ remoteLookups (lookupHost system) remote ↔ Searches system remote name file := by
  have hmem : (name, file) ∈ remoteLookups (lookupHost system) remote ↔
      name ∈ (remoteConfig (lookupHost system) remote).1.lookupHosts ∧
        file ∈ (remoteConfig (lookupHost system) remote).1.knownHostsFiles := by
    unfold remoteLookups
    simp only [List.mem_flatMap, List.mem_map, Prod.mk.injEq]
    constructor
    · rintro ⟨file', hfile, name', hname, rfl, rfl⟩
      exact ⟨hname, hfile⟩
    · rintro ⟨hname, hfile⟩
      exact ⟨file, hfile, name, hname, rfl, rfl⟩
  rw [hmem]
  by_cases hended : ∃ stdout detail, system.ssh (sshArgs remote) = .ended (some 0) stdout detail
  · obtain ⟨stdout, detail, h⟩ := hended
    rw [remoteConfig_of_ended h]
    constructor
    · intro hsearched
      exact .inl ⟨stdout, detail, h, hsearched⟩
    · rintro (⟨stdout', detail', h', hsearched⟩ | ⟨hno, -⟩)
      · rw [h] at h'
        cases h'
        exact hsearched
      · exact absurd h (hno stdout detail)
  · have hno : ∀ stdout detail, system.ssh (sshArgs remote) ≠ .ended (some 0) stdout detail :=
      fun stdout detail h => hended ⟨stdout, detail, h⟩
    have hconfig : (remoteConfig (lookupHost system) remote).1 =
        fallbackSshHostConfig (lookupHost system) remote := by
      have hlookup : ∃ error, (lookupHost system).sshConfig remote = .error error := by
        change ∃ error, sshConfigLookup system remote = .error error
        unfold sshConfigLookup
        rcases hrun : system.ssh (sshArgs remote) with reason | reason | ⟨code, stdout, detail⟩
        · exact ⟨_, rfl⟩
        · exact ⟨_, rfl⟩
        · refine ⟨_, if_neg fun hcode => hno stdout detail ?_⟩
          rw [hrun, hcode]
      obtain ⟨error, hlookup⟩ := hlookup
      rw [remoteConfig, hlookup]
    rw [hconfig]
    constructor
    · rintro ⟨hname, hfile⟩
      exact .inr ⟨hno, List.mem_singleton.1 hname, hfile⟩
    · rintro (⟨stdout, detail, h, -⟩ | ⟨-, hname, hfile⟩)
      · exact absurd h (hno stdout detail)
      · exact ⟨List.mem_singleton.2 hname, hfile⟩

/-- `ssh-keygen` ends with a match or with none. -/
def Answers (system : SshSystem) (name : String) (file : Utf8Path) : Prop :=
  ∃ code stdout detail, (code = 0 ∨ code = 1) ∧
    system.sshKeygen (sshKeygenArgs name file) = .ended (some code) stdout detail

theorem fails_iff {name : String} {file : Utf8Path} :
    Fails (lookupHost system) (name, file) ↔ ¬ Answers system name file := by
  have hlookup : (lookupHost system).lookup name file = sshKeygenLookup system name file := rfl
  unfold Fails Answers
  rw [hlookup, sshKeygenLookup]
  rcases system.sshKeygen (sshKeygenArgs name file) with reason | reason | ⟨code, stdout, detail⟩
  · simp [Except.isOk, Except.toBool]
  · simp [Except.isOk, Except.toBool]
  · by_cases hzero : code = some 0
    · simp [hzero, Except.isOk, Except.toBool]
    · by_cases hone : code = some 1
      · simp [hone, Except.isOk, Except.toBool]
      · refine iff_of_true (by simp only [if_neg hzero, if_neg hone]; rfl) ?_
        rintro ⟨code', _, _, hcode, heq⟩
        cases heq
        obtain rfl | rfl := hcode
        · exact hzero rfl
        · exact hone rfl

/-- **The mounted lines, from the two programs.** Every remote is searched by its own name, with
whatever `ssh -G` says. Where every search gets an answer, the lines in the file are the configured
ones and those that `ssh-keygen` prints for a name and a file of one of the remotes. -/
theorem known_hosts_exact (system : SshSystem) (config : AgentboxConfig) :
    (∀ remote stdout, remote.knownHostsName ≠ "" →
      remote.knownHostsName ∈ searchedNames remote (settings stdout)) ∧
    ((∀ remote ∈ (remoteHosts (lookupHost system)).1, ∀ name file,
      Searches system remote name file → Answers system name file) →
        ∀ line, line ∈ mountedLines (lookupHost system) config ↔ line ∈ config.knownHosts ∨
          ∃ remote ∈ (remoteHosts (lookupHost system)).1, ∃ name file,
            Searches system remote name file ∧ Prints system name file line) := by
  constructor
  · intro remote stdout hne
    unfold searchedNames
    rw [List.mem_eraseDups, List.mem_filter, decide_eq_true_eq]
    exact ⟨by simp, hne⟩
  · intro hanswers line
    have hnone : ¬ ∃ q ∈ lookups (lookupHost system) (remoteHosts (lookupHost system)).1,
        Fails (lookupHost system) q := by
      rintro ⟨⟨name, file⟩, hq, hfails⟩
      obtain ⟨remote, hremote, hq⟩ := List.mem_flatMap.1 hq
      exact fails_iff.1 hfails (hanswers remote hremote name file (mem_remoteLookups.1 hq))
    rw [mountedLines_eq, if_neg hnone, List.mem_eraseDups, List.mem_append, or_comm,
      List.mem_flatMap]
    refine or_congr_right ?_
    constructor
    · rintro ⟨⟨name, file⟩, hq, hline⟩
      obtain ⟨remote, hremote, hq⟩ := List.mem_flatMap.1 hq
      exact ⟨remote, hremote, name, file, mem_remoteLookups.1 hq, mem_foundLines.1 hline⟩
    · rintro ⟨remote, hremote, name, file, hsearches, hprints⟩
      exact ⟨(name, file), List.mem_flatMap.2 ⟨remote, hremote, mem_remoteLookups.2 hsearches⟩,
        mem_foundLines.2 hprints⟩

def demoOutput : String :=
  "Hostname github.com\nport 22\nuserknownhostsfile none /ssh/known_hosts\n"

/-- One remote, with a file of known hosts that `ssh` names. -/
def demoSystem : SshSystem where
  remoteUrls := .ok ["git@github.com:owner/repo.git"]
  home := none
  isFile _ := true
  ssh _ := .ended (some 0) demoOutput ""
  sshKeygen _ := .ended (some 0) "# Host github.com found: line 1\ngithub.com ssh-ed25519 AAAA\n" ""
  writeFile _ := .ok "/tmp/known_hosts"

theorem known_hosts_exact_demo :
    "github.com ssh-ed25519 AAAA" ∈ mountedLines (lookupHost demoSystem) {} := by
  have hremotes : (remoteHosts (lookupHost demoSystem)).1 = [⟨"github.com", none⟩] := by
    decide +kernel
  have hfiles : searchedFiles demoSystem.isFile (settings demoOutput) =
      [⟨"/ssh/known_hosts"⟩] := by decide +kernel
  refine ((known_hosts_exact demoSystem {}).2 (fun _ _ _ _ _ => ⟨0, _, _, .inl rfl, rfl⟩) _).2
    (.inr ⟨⟨"github.com", none⟩, ?_, "github.com", ⟨"/ssh/known_hosts"⟩, ?_, ?_⟩)
  · rw [hremotes]
    exact List.mem_singleton_self _
  · refine .inl ⟨_, _, rfl, by decide +kernel, ?_⟩
    rw [hfiles]
    exact List.mem_singleton_self _
  · exact ⟨_, _, rfl, by decide +kernel⟩

end Agentbox.SshSigning.SshLookups
