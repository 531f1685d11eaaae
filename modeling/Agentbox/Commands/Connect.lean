import Agentbox.Commands.RuntimeCommand
import Agentbox.Commands.WorkspaceFlow
import Agentbox.Session.Connectable

/-! # connect

`commands/connect.rs`. -/

namespace Agentbox.Commands.Connect

open Agentbox.Base.Errors Agentbox.Files.Snapshot Agentbox.Lib.Program Agentbox.Runtime.Kind
  Agentbox.Workspace.Identity Agentbox.Session.Selection Agentbox.Session.Connectable
  Agentbox.Commands.HostCalls Agentbox.Commands.WorkspaceFlow Agentbox.Commands.CodexAttachAuth
  Agentbox.Commands.RuntimeCommand

def connectFailedError (workspace : WorkspaceIdentity) (session : ConnectableSession)
    (error : Error) : Error :=
  .msg ("failed to connect to managed session `" ++ session.session.containerName ++ "` for `" ++
    workspace.canonicalGitRoot.asStr ++ "`: " ++ error.display ++
    ". If the session already exited, rerun `" ++
    runCommandHint (some session.runtime.asStr) workspace ++
    "` or remove the leftover container with `agentbox stop " ++
    workspace.requestedTarget.asStr ++ "`.")

def connectLocked (agentArgs : List String) (workspace : WorkspaceIdentity) : Command Unit := do
  let sessions ← discoverManagedSessions workspace
  let session ← Prog.ofExcept (selectConnectSession workspace sessions)
  let codexAttachToken ← loadCodexAttachTokenForClient session.runtime workspace
  match ← (runHostRuntimeClient session.runtime session.endpoint session.launchDirectory
    codexAttachToken agentArgs).attempt with
  | .ok () => return ()
  | .error error => .fail (connectFailedError workspace session error)

def connectDirectory (directory : OsPath) (agentArgs : List String) : Command Unit :=
  withLockedWorkspace directory (connectLocked agentArgs)

end Agentbox.Commands.Connect
