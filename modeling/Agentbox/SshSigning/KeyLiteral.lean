import Agentbox.Base.Trim
import Agentbox.SshSigning.SigningKey

/-! # What Git makes of a signing key

Git signs with the key that `user.signingkey` spells out when the value begins with `key::` or
`ssh-`, and takes it for the path of a key file otherwise.

* `isGitLiteral_iff`: of what agentbox takes for a literal, Git does so too but for the bare types.
* `normalize_of_agree`: nothing but the value and `.pub` files is read.
* `literal_accepted_iff`: when Git signs with the key that is passed on. -/

namespace Agentbox.SshSigning.KeyLiteral

open Agentbox.Base.Text Agentbox.Base.Trim Agentbox.Base.Path Agentbox.Files.Snapshot
  Agentbox.SshSigning.SigningKey

/-- Git's own test. -/
def IsGitLiteral (value : String) : Prop :=
  startsWith value "key::" = true ∨ startsWith value "ssh-" = true

/-- A key of one of the types that do not begin with `ssh-`, without `key::`. -/
def IsBareKey (text : String) : Prop :=
  startsWith text "key::" = false ∧
    (startsWith text "ecdsa-sha2-" = true ∨ startsWith text "sk-" = true)

/-! ### The recognizer -/

def keyTypeIs (keyType : String) : Bool :=
  keyType == "ssh-rsa" || keyType == "ssh-ed25519" || startsWith keyType "ecdsa-sha2-" ||
    startsWith keyType "sk-"

theorem isSshPublicKeyLiteral_of_bare {value : String} {c : Char}
    (hkey : startsWith value "key::" = false) (hc : value.toList.head? = some c)
    (hw : isWhitespace c = false) : isSshPublicKeyLiteral value =
      keyTypeIs (String.ofList (value.toList.takeWhile fun c => !isWhitespace c)) := by
  obtain ⟨ws, hfirst⟩ := firstWord hc hw
  have hrest : ∀ rest, value.toList ≠ 'k' :: 'e' :: 'y' :: ':' :: ':' :: rest := by
    intro rest h
    have hstart : startsWith value "key::" = true :=
      startsWith_iff.2 (h ▸ ⟨rest, rfl⟩)
    rw [hkey] at hstart
    cases hstart
  unfold isSshPublicKeyLiteral
  simp only
  -- the text after `key::` is the whole text here, by `hrest`
  split
  · next h =>
    rw [hfirst] at h
    cases h
  · next word words h =>
    rw [hfirst, List.cons.injEq] at h
    rw [← h.1]
    rfl

theorem startsWith_word {value w : String} (hw : ∀ c ∈ w.toList, (!isWhitespace c) = true) :
    startsWith (String.ofList (value.toList.takeWhile fun c => !isWhitespace c)) w =
      startsWith value w := by
  rw [Bool.eq_iff_iff, startsWith_iff, startsWith_iff, String.toList_ofList,
    prefix_takeWhile_iff hw]

theorem isGitLiteral_of_word {value word : String}
    (h : String.ofList (value.toList.takeWhile fun c => !isWhitespace c) = word)
    (hword : "ssh-".toList <+: word.toList) : IsGitLiteral value := by
  refine .inr (startsWith_iff.2 (hword.trans ?_))
  rw [← h, String.toList_ofList]
  exact List.takeWhile_prefix _

/-- `ssh-` and `key::` do not begin a bare key. -/
theorem not_isGitLiteral_of_bare {value : String} (h : IsBareKey value) : ¬ IsGitLiteral value := by
  rintro (hkey | hssh)
  · rw [h.1] at hkey
    cases hkey
  · have hboth : ∀ w : String, startsWith value w = true →
        w.toList <+: "ssh-".toList ∨ "ssh-".toList <+: w.toList := fun w hw =>
      List.prefix_or_prefix_of_prefix (startsWith_iff.1 hw) (startsWith_iff.1 hssh)
    rcases h.2 with h | h
    · exact absurd (hboth _ h) (by decide)
    · exact absurd (hboth _ h) (by decide)

section
variable {value : String} {c : Char} (hc : value.toList.head? = some c)
  (hw : isWhitespace c = false)
include hc hw

theorem isSshPublicKeyLiteral_of_isBareKey (h : IsBareKey value) :
    isSshPublicKeyLiteral value = true := by
  rw [isSshPublicKeyLiteral_of_bare h.1 hc hw, keyTypeIs, startsWith_word (by simp [isWhitespace]),
    startsWith_word (by simp [isWhitespace])]
  rcases h.2 with h | h
  · simp [h]
  · simp [h]

theorem isGitLiteral_iff (h : isSshPublicKeyLiteral value = true) :
    IsGitLiteral value ↔ ¬ IsBareKey value := by
  refine ⟨fun hgit hbare => not_isGitLiteral_of_bare hbare hgit, fun hbare => ?_⟩
  cases hkey : startsWith value "key::" with
  | true => exact .inl hkey
  | false =>
    rw [isSshPublicKeyLiteral_of_bare hkey hc hw, keyTypeIs, startsWith_word (by simp [isWhitespace]),
      startsWith_word (by simp [isWhitespace])] at h
    simp only [Bool.or_eq_true, beq_iff_eq] at h
    rcases h with ((h | h) | h) | h
    · exact isGitLiteral_of_word h (by decide)
    · exact isGitLiteral_of_word h (by decide)
    · exact absurd ⟨hkey, .inl h⟩ hbare
    · exact absurd ⟨hkey, .inr h⟩ hbare

end

/-- A text that begins with a tilde is no key. -/
theorem isSshPublicKeyLiteral_of_tilde {value : String} (h : startsWith value "~//" = true) :
    isSshPublicKeyLiteral value = false := by
  have hboth : ∀ w : String, startsWith value w = true →
      w.toList <+: "~//".toList ∨ "~//".toList <+: w.toList := fun w hw =>
    List.prefix_or_prefix_of_prefix (startsWith_iff.1 hw) (startsWith_iff.1 h)
  have hhead : value.toList.head? = some '~' := by
    obtain ⟨rest, hrest⟩ := startsWith_iff.1 h
    rw [← hrest]
    rfl
  rw [Bool.eq_false_iff]
  intro hliteral
  by_cases hbare : IsBareKey value
  · rcases hbare.2 with hstart | hstart
    · exact absurd (hboth _ hstart) (by decide)
    · exact absurd (hboth _ hstart) (by decide)
  · rcases (isGitLiteral_iff hhead (by decide) hliteral).2 hbare with hstart | hstart
    · exact absurd (hboth _ hstart) (by decide)
    · exact absurd (hboth _ hstart) (by decide)

/-! ### What is read -/

/-- The name of the file ends with `.pub`. -/
def NamedPub (path : Utf8Path) : Prop :=
  ∃ name, path.fileName = some name ∧ ".pub".toList <:+ name.toList

/-- The first line that is not blank, without the blanks around it. -/
def firstLine (contents : String) : Option String :=
  ((contents.toList.splitOn '\n').map fun line => trim (String.ofList line)).find? (· ≠ "")

theorem readPublicKeyFile_eq (host : PassthroughHost) (path : Utf8Path) :
    readPublicKeyFile host path =
      ((host.readToString path).bind firstLine).filter isSshPublicKeyLiteral := by
  rw [readPublicKeyFile]
  cases host.readToString path <;> rfl

theorem namedPub_of_extension {path : Utf8Path} (h : extension path = some "pub") :
    NamedPub path := by
  obtain ⟨name, hname, hext⟩ := Option.bind_eq_some_iff.1 h
  refine ⟨name, hname, ?_⟩
  simp only at hext
  split at hext
  · cases hext
  · cases hext
  · next d e r hdrop =>
    have hsplit := List.takeWhile_append_dropWhile (p := (· ≠ '.')) (l := name.toList.reverse)
    have hdot : d = '.' := by
      have hne : name.toList.reverse.dropWhile (· ≠ '.') ≠ [] := by
        rw [hdrop]
        exact List.cons_ne_nil _ _
      have hhead := List.head_dropWhile_not (fun c : Char => decide (c ≠ '.')) hne
      simp only [hdrop, List.head_cons] at hhead
      simpa using hhead
    have hpub : (name.toList.reverse.takeWhile (· ≠ '.')).reverse = "pub".toList := by
      have hlist := congrArg String.toList (Option.some.inj hext)
      rwa [String.toList_ofList] at hlist
    refine ⟨(e :: r).reverse, ?_⟩
    rw [hdrop, hdot] at hsplit
    have hback := congrArg List.reverse hsplit
    rw [List.reverse_append, hpub, List.reverse_reverse, List.reverse_cons] at hback
    rw [← hback]
    simp

theorem segmentComponent_long {atStart : Bool} {segment : List Char} (h : 3 ≤ segment.length) :
    Utf8Path.segmentComponent atStart segment = some (.normal (String.ofList segment)) := by
  unfold Utf8Path.segmentComponent
  rw [if_neg (by rintro rfl; simp at h), if_neg (by rintro rfl; simp at h),
    if_neg (by rintro rfl; simp at h)]

/-- The name of a path is its last segment, where that is no `.` or `..`. -/
theorem fileName_of_segment {path : Utf8Path} {segment : List Char} (hlen : 3 ≤ segment.length)
    (hslash : '/' ∉ segment) (h : path.asStr.toList = segment ∨
      ∃ a, path.asStr.toList = a ++ '/' :: segment) :
    path.fileName = some (String.ofList segment) := by
  have hlast : path.components.getLast? = some (.normal (String.ofList segment)) := by
    unfold Utf8Path.components
    rcases h with h | ⟨a, h⟩
    · have hrel : path.isAbsolute = false := by
        rw [Utf8Path.isAbsolute, h, beq_eq_false_iff_ne]
        exact fun hhead => hslash (List.mem_of_mem_head? hhead)
      rw [h, List.splitOn_eq_singleton hslash, hrel]
      simp [segmentComponent_long hlen]
    · obtain ⟨first, rest, hfirst⟩ := List.exists_cons_of_ne_nil (List.splitOn_ne_nil '/' a)
      rw [h, List.splitOn_append_cons_self, List.splitOn_eq_singleton hslash, hfirst]
      simp [segmentComponent_long hlen]
  rw [Utf8Path.fileName, hlast]

/-- The file beside a path. -/
theorem namedPub_sibling (path : Utf8Path) : NamedPub ⟨path.asStr ++ ".pub"⟩ := by
  have hlist : (path.asStr ++ ".pub").toList = path.asStr.toList ++ ".pub".toList :=
    String.toList_append
  have hpub : '/' ∉ ".pub".toList := by decide
  obtain ⟨t, ht, hcut⟩ : ∃ t, '/' ∉ t ∧
      (path.asStr.toList = t ∨ ∃ a, path.asStr.toList = a ++ '/' :: t) := by
    by_cases hslash : '/' ∈ path.asStr.toList
    · obtain ⟨t, a, hrev, ht⟩ := List.eq_append_cons_of_mem (List.mem_reverse.2 hslash)
      have hback := congrArg List.reverse hrev
      rw [List.reverse_reverse, List.reverse_append, List.reverse_cons, List.append_assoc] at hback
      exact ⟨t.reverse, by rwa [List.mem_reverse], .inr ⟨a.reverse, hback⟩⟩
    · exact ⟨_, hslash, .inl rfl⟩
  have hname : (⟨path.asStr ++ ".pub"⟩ : Utf8Path).fileName =
      some (String.ofList (t ++ ".pub".toList)) := by
    refine fileName_of_segment ?_ ?_ ?_
    · rw [List.length_append]
      exact Nat.le_add_left_of_le (by decide)
    · rw [List.mem_append]
      exact fun hmem => hmem.elim ht hpub
    · rw [hlist]
      rcases hcut with h | ⟨a, h⟩
      · exact .inl (by rw [h])
      · exact .inr ⟨a, by rw [h, List.append_assoc, List.cons_append]⟩
  exact ⟨_, hname, t, String.toList_ofList.symm⟩

/-- The path that a value names: after `~` and slashes a path below the home directory, and a relative
path is one of the repository. -/
inductive Names (gitRoot : Utf8Path) (home : Option Utf8Path) : String → Utf8Path → Prop
  | home {directory : Utf8Path} : home = some directory →
    Names gitRoot home "~" (gitRoot.join directory)
  | belowHome {directory : Utf8Path} (rest : String) : home = some directory →
    Names gitRoot home ("~/" ++ rest)
      (gitRoot.join (directory.join ⟨String.ofList (rest.toList.dropWhile (· = '/'))⟩))
  | path {value : String} : value.toList.head? ≠ some '~' →
    Names gitRoot home value (gitRoot.join ⟨value⟩)

/-- The file of the public key: the path itself, or the file beside it. -/
def publicKeyFile (path : Utf8Path) : Utf8Path :=
  if extension path = some "pub" then path else ⟨path.asStr ++ ".pub"⟩

/-- The first line of the public key file that the value names. -/
def IsFirstLine (host : PassthroughHost) (value : String) (gitRoot : Utf8Path)
    (home : Option Utf8Path) (line : String) : Prop :=
  ∃ path contents, Names gitRoot home value path ∧
    host.readToString (publicKeyFile path) = some contents ∧ firstLine contents = some line

theorem join_eq_ite (p q : Utf8Path) : p.join q = if q.isAbsolute = true then q else p.join q := by
  split_ifs with habsolute
  · exact if_pos habsolute
  · rfl

/-- The path that is read is the one that the value names, but for a second slash after `~`. -/
theorem names_of_signingKeyPath {value : String} {gitRoot path : Utf8Path} {home : Option Utf8Path}
    (h : signingKeyPath value gitRoot home = some path) (hslash : startsWith value "~//" = false) :
    Names gitRoot home value path := by
  obtain ⟨directory, hdirectory, rfl⟩ := Option.map_eq_some_iff.1 h
  rw [← join_eq_ite]
  split at hdirectory
  · next hvalue =>
    obtain rfl : value = "~" := String.toList_injective hvalue
    exact .home hdirectory
  · next rest hvalue =>
    obtain ⟨home', hhome, rfl⟩ := Option.map_eq_some_iff.1 hdirectory
    obtain rfl : value = "~/" ++ String.ofList rest := by
      refine String.toList_injective ?_
      simp [hvalue]
    have hrest : rest.head? ≠ some '/' := by
      intro hhead
      obtain ⟨tail, rfl⟩ := List.head?_eq_some_iff.1 hhead
      have hstart : startsWith ("~/" ++ String.ofList ('/' :: tail)) "~//" = true :=
        startsWith_iff.2 ⟨tail, by rw [hvalue]; rfl⟩
      rw [hslash] at hstart
      cases hstart
    have hdrop : rest.dropWhile (· = '/') = rest := by
      rcases rest with _ | ⟨c, tail⟩
      · rfl
      · exact List.dropWhile_cons_of_neg (by simpa using hrest)
    have hnames := @Names.belowHome gitRoot home home' (String.ofList rest) hhome
    rwa [String.toList_ofList, hdrop] at hnames
  · cases hdirectory
  · next hone hhome htilde =>
    obtain rfl := Option.some.inj hdirectory
    refine .path fun hhead => ?_
    obtain ⟨tail, htail⟩ := List.head?_eq_some_iff.1 hhead
    exact htilde tail htail

/-- The `.pub` file that is read for a path, if any is. -/
def pubFile (host : PassthroughHost) (path : Utf8Path) : Option Utf8Path :=
  if extension path = some "pub" then some path
  else if host.isFile ⟨path.asStr ++ ".pub"⟩ then some ⟨path.asStr ++ ".pub"⟩ else none

theorem namedPub_of_pubFile {host : PassthroughHost} {path file : Utf8Path}
    (h : pubFile host path = some file) : NamedPub file := by
  unfold pubFile at h
  split_ifs at h with hext hfile
  · exact Option.some.inj h ▸ namedPub_of_extension hext
  · exact Option.some.inj h ▸ namedPub_sibling path

theorem publicKeyFile_of_pubFile {host : PassthroughHost} {path file : Utf8Path}
    (h : pubFile host path = some file) : file = publicKeyFile path := by
  unfold pubFile at h
  unfold publicKeyFile
  split_ifs at h ⊢ with hext hfile
  · exact (Option.some.inj h).symm
  · exact (Option.some.inj h).symm

theorem publicKeyForPath_eq (host : PassthroughHost) (path : Utf8Path) :
    publicKeyForPath host path = (pubFile host path).bind (readPublicKeyFile host) := by
  unfold publicKeyForPath pubFile
  simp only
  split_ifs <;> rfl

/-- What two hosts have in common that agree on `.pub` files. -/
structure AgreesOnPub (a b : PassthroughHost) : Prop where
  isFile : ∀ path, NamedPub path → a.isFile path = b.isFile path
  readToString : ∀ path, NamedPub path → a.readToString path = b.readToString path

/-- **Nothing but the value and `.pub` files is read.** -/
theorem normalize_of_agree {a b : PassthroughHost} (h : AgreesOnPub a b) (value : String)
    (gitRoot : Utf8Path) (home : Option Utf8Path) :
    normalizeSigningKeyValue a value gitRoot home =
      normalizeSigningKeyValue b value gitRoot home := by
  have hpath : ∀ path, publicKeyForPath a path = publicKeyForPath b path := by
    intro path
    have hpub : pubFile a path = pubFile b path := by
      unfold pubFile
      rw [h.isFile _ (namedPub_sibling path)]
    rw [publicKeyForPath_eq, publicKeyForPath_eq, hpub]
    cases hfile : pubFile b path with
    | none => rfl
    | some file =>
      rw [Option.bind_some, Option.bind_some, readPublicKeyFile_eq, readPublicKeyFile_eq,
        h.readToString file (namedPub_of_pubFile hfile)]
  simp only [normalizeSigningKeyValue, funext hpath]

/-! ### The key that is passed on -/

/-- The text that is configured as a key: a literal, or the first line of the public key file. -/
inductive Configured (host : PassthroughHost) (value : String) (gitRoot : Utf8Path)
    (home : Option Utf8Path) : String → Prop
  | literal : isSshPublicKeyLiteral (trim value) = true →
    Configured host value gitRoot home (trim value)
  | file {path file : Utf8Path} {contents line : String} :
    isSshPublicKeyLiteral (trim value) = false → trim value ≠ "" →
    signingKeyPath (trim value) gitRoot home = some path → pubFile host path = some file →
    host.readToString file = some contents → firstLine contents = some line →
    Configured host value gitRoot home line

section
variable {host : PassthroughHost} {value : String} {gitRoot : Utf8Path} {home : Option Utf8Path}

theorem normalize_eq_some_iff {key : String} :
    normalizeSigningKeyValue host value gitRoot home = some key ↔
      Configured host value gitRoot home key ∧ isSshPublicKeyLiteral key = true := by
  unfold normalizeSigningKeyValue
  constructor
  · intro h
    simp only at h
    split_ifs at h with hempty hliteral
    · exact Option.some.inj h ▸ ⟨.literal hliteral, hliteral⟩
    · obtain ⟨path, hpath, h⟩ := Option.bind_eq_some_iff.1 h
      rw [publicKeyForPath_eq] at h
      obtain ⟨file, hfile, h⟩ := Option.bind_eq_some_iff.1 h
      rw [readPublicKeyFile_eq, Option.filter_eq_some_iff] at h
      obtain ⟨contents, hcontents, hline⟩ := Option.bind_eq_some_iff.1 h.1
      exact ⟨.file (by simpa using hliteral) hempty hpath hfile hcontents hline, h.2⟩
  · rintro ⟨hconf, hkey⟩
    cases hconf with
    | literal hliteral =>
      have hne : trim value ≠ "" := by
        intro h
        rw [h] at hliteral
        exact absurd hliteral (by decide)
      simp only [if_neg hne, if_pos hliteral]
    | file hliteral hne hpath hfile hcontents hline =>
      simp only [if_neg hne, hliteral, Bool.false_eq_true, if_false, hpath, Option.bind_some,
        publicKeyForPath_eq, hfile, readPublicKeyFile_eq, hcontents, hline]
      simp [hkey]

theorem head_of_configured {text : String} (h : Configured host value gitRoot home text)
    (hne : text ≠ "") : ∃ c, text.toList.head? = some c ∧ isWhitespace c = false := by
  obtain ⟨c, hc⟩ : ∃ c, text.toList.head? = some c := by
    cases hl : text.toList with
    | nil => exact absurd (String.toList_eq_nil_iff.1 hl) hne
    | cons c l => exact ⟨c, rfl⟩
  obtain ⟨s, rfl⟩ : ∃ s, text = trim s := by
    cases h with
    | literal => exact ⟨value, rfl⟩
    | file _ _ _ _ _ hline =>
      obtain ⟨line, -, hline⟩ := List.mem_map.1 (List.mem_of_find?_eq_some hline)
      exact ⟨_, hline.symm⟩
  exact ⟨c, hc, head_trim hc⟩

end

/-- What is to hold of the key that is passed on. -/
structure PassesLiteral (host : PassthroughHost) (value : String) (gitRoot : Utf8Path)
    (home : Option Utf8Path) : Prop where
  accepted : ∀ key, normalizeSigningKeyValue host value gitRoot home = some key → IsGitLiteral key
  configured : ∀ key, normalizeSigningKeyValue host value gitRoot home = some key →
    key = trim value ∨ IsFirstLine host (trim value) gitRoot home key
  onlyPub : ∀ other, AgreesOnPub host other →
    normalizeSigningKeyValue other value gitRoot home =
      normalizeSigningKeyValue host value gitRoot home

/-- **A literal is passed on that Git takes for one, of the file that is named, exactly when** no bare
key is configured and, after `~//`, a key in the absolute path is also the one below the home
directory. -/
theorem literal_accepted_iff (host : PassthroughHost) (value : String) (gitRoot : Utf8Path)
    (home : Option Utf8Path) : PassesLiteral host value gitRoot home ↔
      (∀ text, Configured host value gitRoot home text → ¬ IsBareKey text) ∧
      (startsWith (trim value) "~//" = true → ∀ text, Configured host value gitRoot home text →
        isSshPublicKeyLiteral text = true → IsFirstLine host (trim value) gitRoot home text) := by
  constructor
  · intro h
    constructor
    · intro text htext hbare
      have hne : text ≠ "" := by
        rintro rfl
        exact absurd hbare (by unfold IsBareKey; decide)
      obtain ⟨c, hc, hw⟩ := head_of_configured htext hne
      have hliteral := isSshPublicKeyLiteral_of_isBareKey hc hw hbare
      exact not_isGitLiteral_of_bare hbare
        (h.accepted text (normalize_eq_some_iff.2 ⟨htext, hliteral⟩))
    · intro hslash text htext hliteral
      refine (h.configured text (normalize_eq_some_iff.2 ⟨htext, hliteral⟩)).resolve_left ?_
      rintro rfl
      rw [isSshPublicKeyLiteral_of_tilde hslash] at hliteral
      cases hliteral
  · rintro ⟨hbare, hslash⟩
    refine ⟨fun key hkey => ?_, fun key hkey => ?_, fun other hother =>
      (normalize_of_agree hother value gitRoot home).symm⟩
    · obtain ⟨hconf, hliteral⟩ := normalize_eq_some_iff.1 hkey
      have hne : key ≠ "" := by
        rintro rfl
        exact absurd hliteral (by decide)
      obtain ⟨c, hc, hw⟩ := head_of_configured hconf hne
      exact (isGitLiteral_iff hc hw hliteral).2 (hbare key hconf)
    · obtain ⟨hconf, hliteral⟩ := normalize_eq_some_iff.1 hkey
      cases hstart : startsWith (trim value) "~//" with
      | true => exact .inr (hslash hstart key hconf hliteral)
      | false =>
        cases hconf with
        | literal => exact .inl rfl
        | file _ _ hpath hfile hcontents hline =>
          rw [publicKeyFile_of_pubFile hfile] at hcontents
          exact .inr ⟨_, _, names_of_signingKeyPath hpath hstart, hcontents, hline⟩

/-- An ECDSA key with its public key beside it. -/
def ecdsaHost : PassthroughHost where
  environment _ := none
  gitConfig _ _ := .ok none
  gitConfigPath _ _ := .ok none
  isFile path := path.asStr = "/home/alice/.ssh/id_ecdsa.pub"
  canOpen _ := true
  readToString path := if path.asStr = "/home/alice/.ssh/id_ecdsa.pub" then
    some "ecdsa-sha2-nistp256 AAAAE2Vj alice" else none
  connectableUnixSocket _ := false
  knownHostsFile _ := none

/-- Git looks for a file of the name of the key. -/
theorem ecdsaHost_passes_path :
    ¬ PassesLiteral ecdsaHost "~/.ssh/id_ecdsa" ⟨"/repo"⟩ (some ⟨"/home/alice"⟩) := by
  intro h
  have hkey : normalizeSigningKeyValue ecdsaHost "~/.ssh/id_ecdsa" ⟨"/repo"⟩
      (some ⟨"/home/alice"⟩) = some "ecdsa-sha2-nistp256 AAAAE2Vj alice" := by decide +kernel
  rcases h.accepted _ hkey with hgit | hgit
  · exact absurd hgit (by decide)
  · exact absurd hgit (by decide)

end Agentbox.SshSigning.KeyLiteral
