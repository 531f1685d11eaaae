import Agentbox.Base.Path
import Agentbox.Metadata.Labels

/-! # Errors

The errors of `error.rs` with their texts. The errors of the operating system and of the JSON
library carry the text they display. -/

namespace Agentbox.Base.Errors

open Agentbox.Base.Path Agentbox.Metadata.Labels

inductive Error
  | exitCode (code : Nat)
  | exitCodeWithMessage (code : Nat) (message : String)
  | message (text : String)
  | io (text : String)
  | json (text : String)
  | utf8 (text : String)
  deriving DecidableEq, Repr

namespace Error

def msg (text : String) : Error := .message text

/-- `Display`. -/
def display : Error → String
  | .exitCode code => s!"process exited with code {code}"
  | .exitCodeWithMessage _ text => text
  | .message text | .io text | .json text | .utf8 text => text

theorem display_message (text : String) : (Error.message text).display = text := rfl

def nonGitTarget (target : Utf8Path) : Error :=
  msg ("`" ++ target.asStr ++ "` is not inside a git repository; choose a directory " ++
    "within a git worktree or initialize one with `git init`")

def escapedGitTarget (target gitRoot : Utf8Path) : Error :=
  msg ("requested directory `" ++ target.asStr ++ "` resolves outside the git root `" ++
    gitRoot.asStr ++ "`; choose a path within `" ++ gitRoot.asStr ++ "`")

def agentboxContainerRequiresAction (containerKind : AgentboxContainerKind) (gitRoot : Utf8Path)
    (containerName detail nextStep : String) : Error :=
  let resource := match containerKind with
    | .managed => "managed session"
    | .run => "transient run container"
  msg (resource ++ " `" ++ containerName ++ "` for `" ++ gitRoot.asStr ++ "` " ++ detail ++ "; " ++
    nextStep)

def duplicateManagedSessions (gitRoot : Utf8Path) : Error :=
  msg ("duplicate managed sessions exist for `" ++ gitRoot.asStr ++
    "`; remove extras before retrying")

def duplicateAgentboxContainers (gitRoot : Utf8Path) : Error :=
  msg ("duplicate agentbox containers exist for `" ++ gitRoot.asStr ++
    "`; remove extras before retrying")

def orphanedManagedSession (gitRoot : Utf8Path) (containerName : String) : Error :=
  msg ("managed session `" ++ containerName ++ "` for `" ++ gitRoot.asStr ++
    "` is orphaned after the repository moved; remove or recreate it before retrying")

def failedManagedSession (gitRoot : Utf8Path) (containerName : String) : Error :=
  msg ("managed session `" ++ containerName ++ "` for `" ++ gitRoot.asStr ++
    "` is in a failed state; clean up or recreate it before retrying")

def runtimeCommandFailed (gitRoot : Utf8Path) (containerName action detail : String) : Error :=
  msg ("failed to " ++ action ++ " for managed session `" ++ containerName ++ "` in `" ++
    gitRoot.asStr ++ "`: " ++ detail ++ ". Verify the runtime image still provides " ++
    "`/entrypoint` and the expected runtime tools, then retry or recreate the session.")

end Error

/-- A step that is followed by another one. -/
theorem bind_eq_ok {ε α β : Type} {x : Except ε α} {f : α → Except ε β} {b : β} :
    x >>= f = .ok b ↔ ∃ a, x = .ok a ∧ f a = .ok b := by
  cases x with
  | ok a => exact ⟨fun h => ⟨a, rfl, h⟩, fun ⟨_, ha, h⟩ => Except.ok.inj ha ▸ h⟩
  | error e => exact ⟨fun h => (nomatch h), fun ⟨_, ha, _⟩ => (nomatch ha)⟩

end Agentbox.Base.Errors
