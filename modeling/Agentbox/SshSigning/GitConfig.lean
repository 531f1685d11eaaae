import Std.Data.String.ToNat
import Agentbox.Lib.NumberedEntries
import Agentbox.Metadata.Labels
import Agentbox.SshSigning.SigningKey

/-! # Git configuration in the environment

`ssh_signing/git_config.rs`: the entries that are read from the host's Git configuration, and the
variables that hand them to the Git of the container. -/

namespace Agentbox.SshSigning.GitConfig

open Agentbox.Base.Text Agentbox.Base.Path Agentbox.Base.Errors Agentbox.Lib.Entries
  Agentbox.Lib.NumberedEntries Agentbox.Metadata.Labels Agentbox.SshSigning.SigningKey

def GIT_CONFIG_COUNT_ENV : String := "GIT_CONFIG_COUNT"
def AGENTBOX_GIT_IDENTITY_NAME_ENV : String := "AGENTBOX_GIT_IDENTITY_NAME"
def AGENTBOX_GIT_IDENTITY_EMAIL_ENV : String := "AGENTBOX_GIT_IDENTITY_EMAIL"
def GIT_IDENTITY_KEYS : List String := ["user.name", "user.email"]
def GIT_SIGNING_KEYS : List String := ["gpg.format", "user.signingkey", "commit.gpgsign"]

def codexExecIdentityEntries : List (String × String) :=
  [("user.name", "Codex"), ("user.email", "noreply@openai.com")]

/-! ### Reading -/

section
variable (host : PassthroughHost) (gitRoot : Utf8Path)

def readGitConfigKeys : List String → List (String × String)
  | [] => []
  | key :: keys =>
    match host.gitConfig gitRoot key with
    | .ok (some value) => (key, value) :: readGitConfigKeys keys
    | .ok none | .error _ => readGitConfigKeys keys

def readGitIdentityEntries : List (String × String) :=
  readGitConfigKeys host gitRoot GIT_IDENTITY_KEYS

def isSigningConfigKey (key : String) : Bool :=
  key == "gpg.format" || key == "user.signingkey" || key == "commit.gpgsign"

/-- The loop of `read_ssh_signing_config_entries`. -/
def signingConfigEntries (home : Option Utf8Path) (sshSigningConfigured : Bool) :
    List (String × String) → List (String × String)
  | [] => []
  | (key, value) :: values =>
    if isSigningConfigKey key && !sshSigningConfigured then
      signingConfigEntries home sshSigningConfigured values
    else if key = "user.signingkey" then
      match normalizeSigningKeyValue host value gitRoot home with
      | some value => (key, value) :: signingConfigEntries home sshSigningConfigured values
      | none => signingConfigEntries home sshSigningConfigured values
    else (key, value) :: signingConfigEntries home sshSigningConfigured values

def readSshSigningConfigEntries (home : Option Utf8Path) : List (String × String) :=
  let values := readGitConfigKeys host gitRoot GIT_SIGNING_KEYS
  let sshSigningConfigured := values.any fun e => e.1 == "gpg.format" && trim e.2 == "ssh"
  signingConfigEntries host gitRoot home sshSigningConfigured values

end

/-! ### Writing -/

/-- The loop of `append_git_config_env`, from an index on. -/
def appendGitConfigEntries (index : Nat) : List (String × String) → LabelMap → LabelMap
  | [], env => env
  | (key, value) :: entries, env =>
    appendGitConfigEntries (index + 1) entries
      ((env.insert ("GIT_CONFIG_KEY_" ++ Nat.repr index) key).insert
        ("GIT_CONFIG_VALUE_" ++ Nat.repr index) value)

def appendGitConfigEnv (env : LabelMap) (entries : List (String × String)) : LabelMap :=
  if entries = [] then env
  else appendGitConfigEntries 0 entries
    (env.insert GIT_CONFIG_COUNT_ENV (Nat.repr entries.length))

def appendAgentboxGitIdentityEnv (env : LabelMap) (entries : List (String × String)) : LabelMap :=
  entries.foldl (fun env e =>
    if e.1 = "user.name" then env.insert AGENTBOX_GIT_IDENTITY_NAME_ENV e.2
    else if e.1 = "user.email" then env.insert AGENTBOX_GIT_IDENTITY_EMAIL_ENV e.2
    else env) env

/-! ### Git's reading -/

theorem append_repr_injective (stem : String) : Function.Injective fun i => stem ++ Nat.repr i :=
  fun i j h => Nat.repr_injective (by
    have hlist := congrArg String.toList h
    simpa only [String.toList_append, List.append_cancel_left_eq, String.toList_inj] using hlist)

/-- The variables that Git reads configuration from. -/
def gitConfigVariables : Numbering String where
  count := GIT_CONFIG_COUNT_ENV
  key i := "GIT_CONFIG_KEY_" ++ Nat.repr i
  value i := "GIT_CONFIG_VALUE_" ++ Nat.repr i
  count_ne_key i h := by
    have hlist := congrArg (fun s => s.toList.take 12) h
    simp [GIT_CONFIG_COUNT_ENV] at hlist
  count_ne_value i h := by
    have hlist := congrArg (fun s => s.toList.take 12) h
    simp [GIT_CONFIG_COUNT_ENV] at hlist
  key_ne_value i j h := by
    have hlist := congrArg (fun s => s.toList.take 12) h
    simp at hlist
  key_injective := append_repr_injective _
  value_injective := append_repr_injective _

/-- The configuration that Git takes from an environment. -/
def gitConfigOfEnv (env : LabelMap) : Option (List (String × String)) :=
  gitConfigVariables.decode env

theorem appendGitConfigEntries_eq : ∀ (entries : List (String × String)) (i : Nat) (env : LabelMap),
    appendGitConfigEntries i entries env = gitConfigVariables.appendFrom i entries env
  | [], _, _ => rfl
  | _ :: entries, i, _ => appendGitConfigEntries_eq entries (i + 1) _

theorem appendGitConfigEnv_eq (env : LabelMap) (entries : List (String × String)) :
    appendGitConfigEnv env entries = gitConfigVariables.append env entries := by
  rw [appendGitConfigEnv, Numbering.append, appendGitConfigEntries_eq]
  rfl

/-- A variable of that kind begins with `GIT_CONFIG_`. -/
theorem startsWith_of_uses {name : String} (h : gitConfigVariables.Uses name) :
    startsWith name "GIT_CONFIG_" = true := by
  rcases h with rfl | ⟨i, rfl | rfl⟩
  · decide
  · simp [startsWith, gitConfigVariables]
  · simp [startsWith, gitConfigVariables]

end Agentbox.SshSigning.GitConfig
