import Agentbox.Base.Digest
import Agentbox.Commands.HostCalls
import Agentbox.Session.Record
import Agentbox.Workspace.Identity

/-! # Codex attach tokens

`commands/codex_attach_auth.rs`: the token that a Codex server is started with, and its file. -/

namespace Agentbox.Commands.CodexAttachAuth

open Agentbox.Base.Text Agentbox.Base.Path Agentbox.Base.Digest Agentbox.Base.Errors
  Agentbox.Lib.Program Agentbox.Runtime.Kind Agentbox.Runtime.Spec Agentbox.Workspace.Identity
  Agentbox.Session.Record Agentbox.Commands.HostCalls

/-- A token with its digest. -/
structure CodexAttachToken where
  value : String
  sha256 : String
  sha256_eq : sha256 = sha256Hex value.toUTF8.toList

namespace CodexAttachToken

def fromValue (value : String) : CodexAttachToken := ⟨value, sha256Hex value.toUTF8.toList, rfl⟩

def generate : Command CodexAttachToken := do
  let value ← generateToken
  return fromValue value

end CodexAttachToken

/-- `CodexAttachTokenStore::create_managed`. -/
def createManaged (workspace : WorkspaceIdentity) : Command CodexAttachToken := do
  let token ← CodexAttachToken.generate
  writeToken workspace.digest64 token.value
  return token

/-- `token_path`, below the state directory of agentbox. -/
def tokenPath (digest64 : String) : String := "codex/ws-tokens/" ++ digest64 ++ ".token"

def missingTokenError (workspace : WorkspaceIdentity) : Error :=
  .msg ("missing Codex attach token for managed session `" ++ workspace.containerName ++ "` in `" ++
    workspace.canonicalGitRoot.asStr ++ "` at `" ++ tokenPath workspace.digest64 ++
    "`; restart or recreate the session before connecting")

def unreadableTokenError (workspace : WorkspaceIdentity) (detail : String) : Error :=
  .msg ("failed to read Codex attach token `" ++ tokenPath workspace.digest64 ++
    "` for managed session `" ++ workspace.containerName ++ "`: " ++ detail)

def emptyTokenError (workspace : WorkspaceIdentity) : Error :=
  .msg ("empty Codex attach token `" ++ tokenPath workspace.digest64 ++ "` for managed session `" ++
    workspace.containerName ++ "`; restart or recreate the session before connecting")

/-- `CodexAttachTokenStore::load_managed`. -/
def loadManaged (workspace : WorkspaceIdentity) : Command CodexAttachToken := do
  match ← readToken workspace.digest64 with
  | .error .notFound => .fail (missingTokenError workspace)
  | .error (.other detail) => .fail (unreadableTokenError workspace detail)
  | .ok text =>
    if trim text = "" then .fail (emptyTokenError workspace)
    else .done (CodexAttachToken.fromValue (trim text))

def prepareCodexAttachToken (runtime : RuntimeKind) (runMode : RuntimeRunMode)
    (workspace : WorkspaceIdentity) : Command (Option CodexAttachToken) :=
  match runtime, runMode with
  | .opencode, _ => .done none
  | .codex, .managedSession => do
    let token ← createManaged workspace
    return some token
  | .codex, .transientServer => do
    let token ← CodexAttachToken.generate
    return some token
  | .codex, .foreground => .done none

def loadCodexAttachTokenForClient (runtime : RuntimeKind) (workspace : WorkspaceIdentity) :
    Command (Option CodexAttachToken) :=
  match runtime with
  | .codex => do
    let token ← loadManaged workspace
    return some token
  | .opencode => .done none

def removeCodexAttachTokenForSession (session : SessionRecord) : Command Unit :=
  if session.runtimeKind = some .codex then
    match session.canonicalGitRoot with
    | some gitRoot => removeToken (gitRootDigest64 gitRoot)
    | none => .done ()
  else .done ()

end Agentbox.Commands.CodexAttachAuth
