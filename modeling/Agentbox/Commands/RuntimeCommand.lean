import Agentbox.Commands.CodexAttachAuth

/-! # Server and client commands

`commands/runtime_command.rs`: the command line of a server, and the run of the host's client. -/

namespace Agentbox.Commands.RuntimeCommand

open Agentbox.Base.Path Agentbox.Base.Errors Agentbox.Lib.Program Agentbox.Runtime.Kind
  Agentbox.Runtime.Spec Agentbox.Commands.HostCalls Agentbox.Commands.CodexAttachAuth
  Agentbox.DevEnv.Environment

def WS_TOKEN_SHA256_FLAG : String := "--ws-token-sha256"

def serverRuntimeCommand (runtime : RuntimeKind) (target : Utf8Path) (devEnv : DevEnvironment)
    (codexAttachToken : Option CodexAttachToken) (serverArgs : List String) :
    Except Error RuntimeInvocation :=
  match runtime, codexAttachToken with
  | .codex, none => .error (.msg "missing Codex attach token for runtime server command")
  | .codex, some token => .ok
    { argv := devEnv.wrapArgv (RuntimeKind.codex.serverCommand ++
        ["--ws-auth", "capability-token", WS_TOKEN_SHA256_FLAG, token.sha256] ++ serverArgs)
      workdir := target }
  | .opencode, _ => .ok
    { argv := devEnv.wrapArgv (RuntimeKind.opencode.serverCommand ++ serverArgs)
      workdir := target }

def hostClientRuntimeCommand (runtime : RuntimeKind) (endpoint : AttachEndpoint)
    (launchDirectory : Utf8Path) (clientArgs : List String) : RuntimeInvocation where
  argv := runtime.hostClientCommand endpoint ++ clientArgs
  workdir := launchDirectory

def requiredCodexClientToken (runtime : RuntimeKind) (token : Option CodexAttachToken) :
    Except Error (Option CodexAttachToken) :=
  match runtime, token with
  | .codex, some token => .ok (some token)
  | .codex, none => .error (.msg "missing Codex attach token for host client command")
  | .opencode, _ => .ok none

def runHostRuntimeClientStatus (runtime : RuntimeKind) (endpoint : AttachEndpoint)
    (launchDirectory : Utf8Path) (codexAttachToken : Option CodexAttachToken)
    (clientArgs : List String) : Command ExitStatus := do
  let client := hostClientRuntimeCommand runtime endpoint launchDirectory clientArgs
  let token ← Prog.ofExcept (requiredCodexClientToken runtime codexAttachToken)
  runHostClient client.argv client.workdir (token.map CodexAttachToken.value)

def hostClientStatusError (runtime : RuntimeKind) (endpoint : AttachEndpoint)
    (launchDirectory : Utf8Path) (status : ExitStatus) (clientArgs : List String) : Error :=
  let client := hostClientRuntimeCommand runtime endpoint launchDirectory clientArgs
  .msg ("`" ++ " ".intercalate client.argv ++ "` exited with " ++ status.text)

def runHostRuntimeClient (runtime : RuntimeKind) (endpoint : AttachEndpoint)
    (launchDirectory : Utf8Path) (codexAttachToken : Option CodexAttachToken)
    (clientArgs : List String) : Command Unit := do
  let status ← runHostRuntimeClientStatus runtime endpoint launchDirectory codexAttachToken
    clientArgs
  if status.success then return ()
  else .fail (hostClientStatusError runtime endpoint launchDirectory status clientArgs)

def ensureHostRuntimeClientAvailable (runtime : RuntimeKind) : Command Unit := do
  let attach := runtime.attachSpec
  let endpoint : AttachEndpoint := ⟨attach.scheme, DEFAULT_HOST_ATTACH_IP, attach.containerPort⟩
  match (runtime.hostClientCommand endpoint).head? with
  | none => .fail (.msg "runtime host client command is empty")
  | some program => do
    if ← which program then return ()
    else .fail (.msg ("`" ++ program ++ "` was not found on PATH; install `" ++ program ++
      "` or add it to PATH"))

end Agentbox.Commands.RuntimeCommand
