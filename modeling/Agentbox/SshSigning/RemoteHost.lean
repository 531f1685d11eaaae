import Agentbox.Base.Trim
import Agentbox.Lib.Delimited
import Agentbox.Lib.FirstOccurrences
import Agentbox.Lib.GitRemote

/-! # The hosts of SSH remotes

`known_hosts/remote.rs`, and where it agrees with Git: on every URL whose host has no
percent-escape, unless a colon of the user hides the port from Git, and on every `[user@]host:path`
whose host is a name. The other syntax is cut at its first colon, which for an address in brackets is
one of the address. -/

namespace Agentbox.SshSigning.RemoteHost

open Agentbox.Base.Text Agentbox.Base.Trim Agentbox.Lib.Delimited Agentbox.Lib.FirstOccurrences
open Agentbox.Lib.GitRemote

structure SshRemoteHost where
  configHost : String
  port : Option Nat
  deriving DecidableEq, Repr

def parsePort (port : List Char) : Option Nat := parseU16 (String.ofList port)

/-- `format_known_host`. -/
def formatKnownHost (host : String) (port : Option Nat) : String :=
  match port with
  | none => host
  | some port => if port = 22 then host else "[" ++ host ++ "]:" ++ toString port

def SshRemoteHost.knownHostsName (host : SshRemoteHost) : String :=
  formatKnownHost host.configHost host.port

/-- `strip_prefix(':')`. -/
def stripColon : List Char → Option (List Char)
  | ':' :: l => some l
  | _ => none

/-- The branch of `ssh_url_host` for an authority that begins with a bracket. -/
def bracketedHost (afterBracket : List Char) : Option SshRemoteHost :=
  match cutAt ']' afterBracket with
  | (_, none) => none
  | (host, some remainder) =>
    if host = [] then none
    else some ⟨String.ofList host, (stripColon remainder).bind parsePort⟩

/-- The `match` of `ssh_url_host` on `rsplit_once(':')`. -/
def hostAndPort (authority : List Char) : List Char × Option Nat :=
  match cutLastAt ':' authority with
  | (port, some host) => if ':' ∈ host then (authority, none) else (host, parsePort port)
  | (_, none) => (authority, none)

/-- The rest of `ssh_url_host`, after the user is cut off. -/
def authorityHost : List Char → Option SshRemoteHost
  | [] => none
  | c :: l =>
    if c = '[' then bracketedHost l
    else if (hostAndPort (c :: l)).1 = [] then none
    else some ⟨String.ofList (hostAndPort (c :: l)).1, (hostAndPort (c :: l)).2⟩

def sshUrlHost (rest : List Char) : Option SshRemoteHost :=
  let authority := rest.takeWhile (· ≠ '/')
  if authority = [] then none else authorityHost (cutLastAt '@' authority).1

def scpLikeHost (url : List Char) : Option SshRemoteHost :=
  if "://".toList <:+: url then none
  else
    match cutAt ':' url with
    | (_, none) => none
    | (host, some _) =>
      if host = [] ∨ '/' ∈ host then none
      else
        let host := (cutLastAt '@' host).1
        if host = [] then none else some ⟨String.ofList host, none⟩

def sshRemoteHost (url : String) : Option SshRemoteHost :=
  if startsWith url "ssh://" then sshUrlHost (url.toList.drop "ssh://".length)
  else if startsWith url "git+ssh://" then sshUrlHost (url.toList.drop "git+ssh://".length)
  else scpLikeHost url.toList

/-- The loop of `ssh_remote_hosts` with its set of seen hosts. -/
def collectHosts (seen : List SshRemoteHost) : List String → List SshRemoteHost
  | [] => []
  | url :: urls =>
    match sshRemoteHost url with
    | none => collectHosts seen urls
    | some host =>
      if host ∈ seen then collectHosts seen urls else host :: collectHosts (host :: seen) urls

def sshRemoteHosts (urls : List String) : List SshRemoteHost := collectHosts [] urls

/-! ### The list of hosts -/

theorem collectHosts_eq : ∀ (seen : List SshRemoteHost) (urls : List String),
    collectHosts seen urls = pushNew seen (urls.filterMap sshRemoteHost)
  | _, [] => rfl
  | seen, url :: urls => by
    rw [collectHosts, List.filterMap_cons]
    cases sshRemoteHost url with
    | none => exact collectHosts_eq seen urls
    | some host => simp only [pushNew, collectHosts_eq seen urls, collectHosts_eq (host :: seen) urls]

/-- Each host is returned once, where it occurs first. -/
theorem sshRemoteHosts_eq (urls : List String) :
    sshRemoteHosts urls = (urls.filterMap sshRemoteHost).eraseDups := by
  rw [sshRemoteHosts, collectHosts_eq, pushNew_nil]

/-! ### URLs -/

theorem parsePort_of_isPort {port : List Char} (h : IsPort port) :
    parsePort port = some (decimal port) := by
  obtain ⟨hne, hdigit, hlt⟩ := h
  have hdigits : port.all isAsciiDigit = true := by
    rw [List.all_eq_true]
    intro c hc
    have := hdigit c hc
    simp only [isAsciiDigit, this, decide_true, Bool.and_self]
  unfold parsePort parseU16
  rw [String.toList_ofList]
  dsimp only
  split
  · next l =>
    have := hdigit '+' (List.mem_cons_self ..)
    exact absurd this (by decide)
  · exact if_pos ⟨hne, hdigits, hlt⟩

theorem not_mem_portText {port : Option (List Char)} (h : ∀ p ∈ port, IsPort p) {c : Char}
    (hc : c ≠ ':') (hdigit : ¬ ('0' ≤ c ∧ c ≤ '9')) : c ∉ portText port := by
  cases port with
  | none => exact List.not_mem_nil
  | some p =>
    intro hmem
    rcases List.mem_cons.1 hmem with rfl | hmem
    · exact hc rfl
    · exact hdigit ((h p rfl).2.1 c hmem)

/-- What follows the last `@` is what follows the user. -/
theorem cutLastAt_userText {l : List Char} (h : '@' ∉ l) (user : Option (List Char)) :
    (cutLastAt '@' (userText user ++ l)).1 = l := by
  cases user with
  | none => exact congrArg Prod.fst (cutLastAt_of_not_mem h)
  | some u =>
    have heq : userText (some u) ++ l = u ++ '@' :: l := by simp [userText]
    rw [heq, cutLastAt_append h]

theorem hostAndPort_name {name : List Char} (h : IsHost true name) {port : Option (List Char)}
    (hp : ∀ p ∈ port, IsPort p) :
    hostAndPort (name ++ portText port) = (name, port.map decimal) := by
  have hcolon : ':' ∉ name := fun hc => (h.2.2 ':' hc).2.1 rfl
  unfold hostAndPort
  cases port with
  | none =>
    rw [portText, List.append_nil, cutLastAt_of_not_mem hcolon]
    rfl
  | some p =>
    have hpc : ':' ∉ p := fun hc => absurd ((hp p rfl).2.1 ':' hc) (by decide)
    rw [portText, cutLastAt_append hpc]
    simp only [if_neg hcolon, parsePort_of_isPort (hp p rfl), Option.map_some]

theorem authorityHost_name {name : List Char} (h : IsHost true name) {port : Option (List Char)}
    (hp : ∀ p ∈ port, IsPort p) : authorityHost (name ++ portText port) =
      some ⟨String.ofList name, port.map decimal⟩ := by
  obtain ⟨c, n, rfl⟩ := List.exists_cons_of_ne_nil h.1
  have hc : c ≠ '[' := fun hc => h.2.1 (by rw [hc]; rfl)
  have hpart := hostAndPort_name h hp
  rw [List.cons_append] at hpart ⊢
  rw [authorityHost, if_neg hc, hpart, if_neg (List.cons_ne_nil _ _)]

theorem stripColon_portText {port : Option (List Char)} (hp : ∀ p ∈ port, IsPort p) :
    (stripColon (portText port)).bind parsePort = port.map decimal := by
  cases port with
  | none => rfl
  | some p => exact parsePort_of_isPort (hp p rfl)

theorem authorityHost_literal {address : List Char} (h : IsHost false address)
    {port : Option (List Char)} (hp : ∀ p ∈ port, IsPort p) :
    authorityHost ('[' :: address ++ [']'] ++ portText port) =
      some ⟨String.ofList address, port.map decimal⟩ := by
  have hne : address ≠ [] := by
    rintro rfl
    exact absurd h.1 (by decide)
  have hbracket : ']' ∉ address := fun hc => (h.2 ']' hc).2.2.1 rfl
  have hcut : cutAt ']' (address ++ [']'] ++ portText port) = (address, some (portText port)) := by
    rw [List.append_assoc, List.singleton_append, cutAt_append hbracket]
  rw [List.cons_append, List.cons_append, authorityHost, if_pos rfl, bracketedHost, hcut]
  simp only [if_neg hne, stripColon_portText hp]

theorem authorityHost_text {host : Host} (h : IsHost host.isName host.bare)
    {port : Option (List Char)} (hp : ∀ p ∈ port, IsPort p) :
    authorityHost (host.text ++ portText port) =
      some ⟨String.ofList host.bare, port.map decimal⟩ := by
  cases host with
  | name text => exact authorityHost_name h hp
  | literal address => exact authorityHost_literal h hp

theorem not_mem_hostText {host : Host} (h : IsHost host.isName host.bare) {c : Char}
    (hc : c = '/' ∨ c = '@') : c ∉ host.text := by
  cases host with
  | name text =>
    intro hmem
    rcases hc with rfl | rfl
    · exact (h.2.2 _ hmem).1 rfl
    · exact (h.2.2 _ hmem).2.2 rfl
  | literal address =>
    intro hmem
    simp only [Host.text, List.cons_append, List.mem_cons, List.mem_append, List.not_mem_nil,
      or_false] at hmem
    rcases hmem with rfl | hmem | rfl
    · exact absurd hc (by decide)
    · rcases hc with rfl | rfl
      · exact (h.2 _ hmem).1 rfl
      · exact (h.2 _ hmem).2.2.2 rfl
    · exact absurd hc (by decide)

theorem hostText_ne_nil {host : Host} (h : IsHost host.isName host.bare) : host.text ≠ [] := by
  cases host with
  | name text => exact h.1
  | literal address => exact List.cons_ne_nil _ _

theorem slash_not_mem_userText {user : Option (List Char)} (h : ∀ u ∈ user, IsUser u) :
    '/' ∉ userText user := by
  cases user with
  | none => exact List.not_mem_nil
  | some u =>
    intro hmem
    rcases List.mem_append.1 hmem with hmem | hmem
    · exact (h u rfl).2.1 hmem
    · exact absurd (List.mem_singleton.1 hmem) (by decide)

/-- **The host and port of a URL**, as they are written. -/
theorem sshUrlHost_text {user : Option (List Char)} {host : Host} {port : Option (List Char)}
    {path : List Char} (h : Parts user host.isName host.bare path) (hp : ∀ p ∈ port, IsPort p) :
    sshUrlHost (userText user ++ host.text ++ portText port ++ '/' :: path) =
      some ⟨String.ofList host.bare, port.map decimal⟩ := by
  have hslash : '/' ∉ userText user ++ host.text ++ portText port := by
    simp only [List.mem_append, not_or]
    exact ⟨⟨slash_not_mem_userText h.isUser, not_mem_hostText h.isHost (.inl rfl)⟩,
      not_mem_portText hp (by decide) (by decide)⟩
  have hauthority : (userText user ++ host.text ++ portText port ++ '/' :: path).takeWhile
      (· ≠ '/') = userText user ++ (host.text ++ portText port) := by
    rw [← cutAt_fst, cutAt_append hslash, List.append_assoc]
  have hat : '@' ∉ host.text ++ portText port := by
    simp only [List.mem_append, not_or]
    exact ⟨not_mem_hostText h.isHost (.inr rfl), not_mem_portText hp (by decide) (by decide)⟩
  have hne : userText user ++ (host.text ++ portText port) ≠ [] := by
    simp [hostText_ne_nil h.isHost]
  rw [sshUrlHost, hauthority, if_neg hne, cutLastAt_userText hat, authorityHost_text h.isHost hp]

theorem sshRemoteHost_url (scheme : Scheme) (rest : List Char) :
    sshRemoteHost (String.ofList (scheme.text ++ "://".toList ++ rest)) = sshUrlHost rest := by
  cases scheme with
  | ssh =>
    have hstart : startsWith (String.ofList (Scheme.ssh.text ++ "://".toList ++ rest)) "ssh://" =
        true := startsWith_iff.2 ⟨rest, String.toList_ofList.symm⟩
    rw [sshRemoteHost, if_pos hstart, String.toList_ofList]
    rfl
  | gitSsh =>
    have hssh : ¬ startsWith (String.ofList (Scheme.gitSsh.text ++ "://".toList ++ rest)) "ssh://" =
        true := by
      rw [startsWith_iff]
      rintro ⟨r, hr⟩
      have hhead : some 's' = some 'g' := congrArg List.head? (hr.trans String.toList_ofList)
      exact absurd hhead (by decide)
    have hstart : startsWith (String.ofList (Scheme.gitSsh.text ++ "://".toList ++ rest))
        "git+ssh://" = true := startsWith_iff.2 ⟨rest, String.toList_ofList.symm⟩
    rw [sshRemoteHost, if_neg hssh, if_pos hstart, String.toList_ofList]
    rfl

/-! ### The other syntax -/

/-- A text without `://` is read as a host and a path. -/
theorem sshRemoteHost_of_not_url {l : List Char} (h : ¬ "://".toList <:+: l) :
    sshRemoteHost (String.ofList l) = scpLikeHost l := by
  have hno : ∀ scheme : String, "://".toList <:+: scheme.toList →
      ¬ startsWith (String.ofList l) scheme = true := by
    intro scheme hin hstart
    rw [startsWith_iff, String.toList_ofList] at hstart
    exact h (hin.trans hstart.isInfix)
  rw [sshRemoteHost, if_neg (hno _ ⟨"ssh".toList, [], rfl⟩),
    if_neg (hno _ ⟨"git+ssh".toList, [], rfl⟩), String.toList_ofList]

/-- The host is cut off at the first colon. -/
theorem colon_not_mem_scpLikeHost {l : List Char} {host : SshRemoteHost}
    (h : scpLikeHost l = some host) : ':' ∉ host.configHost.toList := by
  unfold scpLikeHost at h
  split_ifs at h
  have hcut : ':' ∉ (cutAt ':' l).1 := by
    rw [cutAt_fst]
    intro hmem
    simpa using List.mem_takeWhile_imp hmem
  split at h
  · cases h
  · next p r heq =>
    rw [heq] at hcut
    dsimp only at h
    split_ifs at h
    rw [← Option.some.inj h, String.toList_ofList]
    exact fun hmem => hcut (mem_of_mem_cutLastAt hmem)

theorem scpLikeHost_name {user : Option (List Char)} {name path : List Char}
    (h : Parts user true name path) (huser : ∀ u ∈ user, ':' ∉ u)
    (hurl : ¬ "://".toList <:+: userText user ++ name ++ ':' :: path) :
    scpLikeHost (userText user ++ name ++ ':' :: path) = some ⟨String.ofList name, none⟩ := by
  obtain ⟨hne, -, hname⟩ := h.isHost
  have hcolon : ':' ∉ userText user ++ name := by
    intro hmem
    rcases List.mem_append.1 hmem with hmem | hmem
    · cases user with
      | none => exact List.not_mem_nil hmem
      | some u =>
        rcases List.mem_append.1 hmem with hmem | hmem
        · exact huser u rfl hmem
        · exact absurd (List.mem_singleton.1 hmem) (by decide)
    · exact (hname ':' hmem).2.1 rfl
  have hslash : ¬ (userText user ++ name = [] ∨ '/' ∈ userText user ++ name) := by
    rintro (hnil | hmem)
    · exact hne (List.append_eq_nil_iff.1 hnil).2
    · rcases List.mem_append.1 hmem with hmem | hmem
      · exact slash_not_mem_userText h.isUser hmem
      · exact (hname '/' hmem).1 rfl
  rw [scpLikeHost, if_neg hurl, cutAt_append hcolon]
  simp only [if_neg hslash, cutLastAt_userText (fun hmem => (hname '@' hmem).2.2 rfl), if_neg hne]

/-! ### Other remotes -/

/-- The scheme of a URL is what stands before its first colon. -/
theorem takeWhile_of_startsWith {l : List Char} {scheme : String} (hscheme : ':' ∉ scheme.toList)
    (h : startsWith (String.ofList l) (scheme ++ "://") = true) :
    ':' ∈ l ∧ l.takeWhile (· ≠ ':') = scheme.toList := by
  rw [startsWith_iff, String.toList_ofList, String.toList_append] at h
  obtain ⟨r, rfl⟩ := h
  have heq : scheme.toList ++ "://".toList ++ r = scheme.toList ++ ':' :: ("//".toList ++ r) := by
    rw [List.append_assoc]
    rfl
  refine ⟨by rw [heq]; simp, ?_⟩
  rw [heq, ← cutAt_fst, cutAt_append hscheme]

/-- A text whose first colon does not end one of the two schemes, and that has no host before it. -/
theorem sshRemoteHost_eq_none {l : List Char}
    (h : ':' ∈ l → l.takeWhile (· ≠ ':') ≠ "ssh".toList ∧ l.takeWhile (· ≠ ':') ≠ "git+ssh".toList)
    (hscp : scpLikeHost l = none) : sshRemoteHost (String.ofList l) = none := by
  have hssh : ¬ startsWith (String.ofList l) "ssh://" = true := by
    intro hstart
    obtain ⟨hmem, heq⟩ := takeWhile_of_startsWith (show ':' ∉ "ssh".toList by decide) hstart
    exact (h hmem).1 heq
  have hgit : ¬ startsWith (String.ofList l) "git+ssh://" = true := by
    intro hstart
    obtain ⟨hmem, heq⟩ := takeWhile_of_startsWith (show ':' ∉ "git+ssh".toList by decide)
      hstart
    exact (h hmem).2 heq
  rw [sshRemoteHost, if_neg hssh, if_neg hgit, String.toList_ofList, hscp]

theorem scpLikeHost_localPath {l : List Char} (h : ':' ∈ l → '/' ∈ l.takeWhile (· ≠ ':')) :
    scpLikeHost l = none := by
  unfold scpLikeHost
  split_ifs
  · rfl
  · by_cases hmem : ':' ∈ l
    · obtain ⟨p, r, rfl, hp⟩ := List.eq_append_cons_of_mem hmem
      have hslash := h hmem
      rw [← cutAt_fst, cutAt_append hp] at hslash
      rw [cutAt_append hp]
      exact if_pos (.inr hslash)
    · rw [cutAt_of_not_mem hmem]

/-- **No other remote is taken for an SSH remote.** -/
theorem sshRemoteHost_other {l : List Char} (h : IsOther l) :
    sshRemoteHost (String.ofList l) = none := by
  cases h with
  | url scheme hscheme rest =>
    have hcolon : ':' ∉ scheme.toList ∧ scheme.toList ≠ "ssh".toList ∧
        scheme.toList ≠ "git+ssh".toList := by
      simp only [List.mem_cons, List.not_mem_nil, or_false] at hscheme
      rcases hscheme with rfl | rfl | rfl | rfl <;> decide
    have hcut : (scheme.toList ++ "://".toList ++ rest).takeWhile (· ≠ ':') = scheme.toList := by
      have heq : scheme.toList ++ "://".toList ++ rest =
          scheme.toList ++ ':' :: ("//".toList ++ rest) := by
        rw [List.append_assoc]
        rfl
      rw [heq, ← cutAt_fst, cutAt_append hcolon.1]
    refine sshRemoteHost_eq_none (fun _ => by rw [hcut]; exact hcolon.2) (if_pos ?_)
    exact ⟨scheme.toList, rest, rfl⟩
  | localPath _ hpath =>
    refine sshRemoteHost_eq_none (fun hmem => ?_) (scpLikeHost_localPath hpath)
    have hslash := hpath hmem
    constructor <;>
    · intro heq
      rw [heq] at hslash
      exact absurd hslash (by decide)

/-! ### Agreement with Git -/

/-- What the code makes of a host and port of Git. -/
def toSshRemoteHost (target : List Char × Option Nat) : SshRemoteHost :=
  ⟨String.ofList target.1, target.2⟩

/-- A remote of a repository: one that Git reaches over SSH, or another one. -/
inductive GitRemote
  | ssh (remote : Remote)
  | other (text : List Char)

namespace GitRemote

def text : GitRemote → String
  | ssh remote => String.ofList remote.text
  | other text => String.ofList text

def WellFormed (decode : List Char → List Char) : GitRemote → Prop
  | ssh remote => remote.WellFormed decode
  | other text => IsOther text

/-- The host and port that Git hands to `ssh`, if it runs `ssh` at all. -/
def target (decode : List Char → List Char) : GitRemote → Option SshRemoteHost
  | ssh remote => some (toSshRemoteHost (remote.target decode))
  | other _ => none

/-- A URL whose host has nothing to decode and whose user does not hide the port, or the other syntax
with a host name. -/
def Plain (decode : List Char → List Char) : GitRemote → Prop
  | ssh (.url scheme user host port path) => decode host.bare = host.bare ∧
      ¬ (Remote.url scheme user host port path).HidesPort decode
  | ssh (.scp _ host _) => host.isName = true
  | other _ => True

end GitRemote

variable {decode : List Char → List Char}

/-- An address in brackets is cut at a colon of its own. -/
theorem sshRemoteHost_scp_literal {user : Option (List Char)} {address path : List Char}
    (h : (Remote.scp user (.literal address) path).WellFormed decode) :
    sshRemoteHost (String.ofList (Remote.scp user (.literal address) path).text) ≠
      some ⟨String.ofList address, none⟩ := by
  obtain ⟨hparts, -, hurl, -⟩ := h
  rw [Remote.text, sshRemoteHost_of_not_url hurl]
  intro heq
  have hcolon := colon_not_mem_scpLikeHost heq
  rw [String.toList_ofList] at hcolon
  have hcount : 2 ≤ address.count ':' := hparts.isHost.1
  rw [List.count_eq_zero.2 hcolon] at hcount
  omega

/-- **One remote**: the code agrees with Git exactly on the plain ones. -/
theorem sshRemoteHost_eq_target_iff {r : GitRemote} (h : r.WellFormed decode) :
    sshRemoteHost r.text = r.target decode ↔ r.Plain decode := by
  cases r with
  | other text => exact iff_of_true (sshRemoteHost_other h) trivial
  | ssh remote =>
    cases remote with
    | url scheme user host port path =>
      obtain ⟨hparts, -, hport⟩ := h
      rw [GitRemote.text, Remote.text, sshRemoteHost_url, sshUrlHost_text hparts hport,
        GitRemote.target, Remote.target, GitRemote.Plain]
      by_cases hhides : (Remote.url scheme user host port path).HidesPort decode
      · obtain ⟨p, rfl⟩ := Option.isSome_iff_exists.1 hhides.2.1
        rw [if_pos hhides]
        refine iff_of_false (fun heq => ?_) fun hplain => hplain.2 hhides
        cases congrArg SshRemoteHost.port (Option.some.inj heq)
      · rw [if_neg hhides, and_iff_left hhides]
        simp only [toSshRemoteHost, Option.some.injEq, SshRemoteHost.mk.injEq, and_true,
          String.ofList_inj]
        exact eq_comm
    | scp user host path =>
      cases host with
      | name text =>
        obtain ⟨hparts, huser, hurl, -⟩ := h
        refine iff_of_true ?_ rfl
        rw [GitRemote.text, Remote.text, sshRemoteHost_of_not_url hurl]
        exact scpLikeHost_name hparts (huser rfl) hurl
      | literal address =>
        have hwf : (Remote.scp user (.literal address) path).WellFormed decode := h
        exact iff_of_false (sshRemoteHost_scp_literal hwf) Bool.false_ne_true

/-- **The remotes of a repository**: each is read as Git reads it, and the hosts are listed once each
in the order of their first remotes, if and only if all of the remotes are plain. -/
theorem sshRemoteHosts_iff_plain (decode : List Char → List Char) (remotes : List GitRemote)
    (h : ∀ r ∈ remotes, r.WellFormed decode) :
    ((∀ r ∈ remotes, sshRemoteHost r.text = r.target decode) ∧
      sshRemoteHosts (remotes.map GitRemote.text) =
        (remotes.filterMap (GitRemote.target decode)).eraseDups ∧
      (sshRemoteHosts (remotes.map GitRemote.text)).Nodup) ↔
      ∀ r ∈ remotes, r.Plain decode := by
  constructor
  · exact fun hall r hr => (sshRemoteHost_eq_target_iff (h r hr)).1 (hall.1 r hr)
  · intro hplain
    have hone : ∀ r ∈ remotes, sshRemoteHost r.text = r.target decode :=
      fun r hr => (sshRemoteHost_eq_target_iff (h r hr)).2 (hplain r hr)
    have hlist : (remotes.map GitRemote.text).filterMap sshRemoteHost =
        remotes.filterMap (GitRemote.target decode) := by
      rw [List.filterMap_map]
      exact List.filterMap_congr hone
    refine ⟨hone, by rw [sshRemoteHosts_eq, hlist], ?_⟩
    rw [sshRemoteHosts_eq]
    exact nodup_eraseDups _

/-- `ssh://git@[2001:db8::1]:2222/repo.git`, `git@example.com:repo.git` twice, and an HTTPS URL. -/
def demoRemotes : List GitRemote :=
  [.ssh (.url .ssh (some "git".toList) (.literal "2001:db8::1".toList) (some "2222".toList)
    "repo.git".toList),
   .ssh (.scp (some "git".toList) (.name "example.com".toList) "repo.git".toList),
   .other ("https".toList ++ "://".toList ++ "example.net/repo.git".toList),
   .ssh (.scp (some "git".toList) (.name "example.com".toList) "repo.git".toList)]

theorem demoRemotes_wellFormed : ∀ r ∈ demoRemotes, r.WellFormed id := by
  have hurl : (Remote.url .ssh (some "git".toList) (.literal "2001:db8::1".toList)
      (some "2222".toList) "repo.git".toList).WellFormed id := by decide +kernel
  have hscp : (Remote.scp (some "git".toList) (.name "example.com".toList)
      "repo.git".toList).WellFormed id := by decide +kernel
  intro r hr
  simp only [demoRemotes, List.mem_cons, List.not_mem_nil, or_false] at hr
  rcases hr with rfl | rfl | rfl | rfl
  · exact hurl
  · exact hscp
  · exact .url "https" (List.mem_cons_self ..) _
  · exact hscp

theorem sshRemoteHosts_iff_plain_demo :
    sshRemoteHosts (demoRemotes.map GitRemote.text) =
        [⟨"2001:db8::1", some 2222⟩, ⟨"example.com", none⟩] ∧
      ∀ r ∈ demoRemotes, sshRemoteHost r.text = r.target id := by
  have hplain : ∀ r ∈ demoRemotes, r.Plain id := by
    intro r hr
    simp only [demoRemotes, List.mem_cons, List.not_mem_nil, or_false] at hr
    rcases hr with rfl | rfl | rfl | rfl
    · exact ⟨rfl, by decide⟩
    · rfl
    · trivial
    · rfl
  obtain ⟨hone, hlist, -⟩ :=
    (sshRemoteHosts_iff_plain id demoRemotes demoRemotes_wellFormed).2 hplain
  exact ⟨hlist.trans (by decide +kernel), hone⟩

/-- **A bracket for a host**: of `git@[::1]:repo.git` the code takes the text between `@` and the
first colon. -/
theorem sshRemoteHost_bracket :
    (GitRemote.ssh (.scp (some "git".toList) (.literal "::1".toList) "repo.git".toList)).WellFormed
      id ∧
    (GitRemote.ssh (.scp (some "git".toList) (.literal "::1".toList) "repo.git".toList)).text =
      "git@[::1]:repo.git" ∧
    sshRemoteHost "git@[::1]:repo.git" = some ⟨"[", none⟩ ∧
    (GitRemote.ssh (.scp (some "git".toList) (.literal "::1".toList) "repo.git".toList)).target id =
      some ⟨"::1", none⟩ := by
  have hwf : (Remote.scp (some "git".toList) (.literal "::1".toList) "repo.git".toList).WellFormed
    id := by decide +kernel
  exact ⟨hwf, by decide +kernel, by decide +kernel, by decide +kernel⟩

end Agentbox.SshSigning.RemoteHost
