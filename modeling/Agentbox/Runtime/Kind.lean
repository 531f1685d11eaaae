import Agentbox.Base.Errors

/-! # Runtimes

The two runtimes with what their profiles say about the server: its attach specification and its
command lines. -/

namespace Agentbox.Runtime.Kind

open Agentbox.Base.Text Agentbox.Base.Errors

def CONTAINER_LISTEN_IP : String := "0.0.0.0"

def DEFAULT_HOST_ATTACH_IP : String := "127.0.0.1"

def CODEX_REMOTE_TOKEN_ENV : String := "AGENTBOX_CODEX_REMOTE_TOKEN"

def YOLO_FLAG : String := "--dangerously-bypass-approvals-and-sandbox"

inductive RuntimeKind
  | opencode
  | codex
  deriving DecidableEq, Repr

structure RuntimeAttachSpec where
  scheme : String
  containerListenIp : String
  containerPort : Nat
  deriving DecidableEq, Repr

structure AttachEndpoint where
  scheme : String
  hostIp : String
  hostPort : Nat
  deriving DecidableEq, Repr

namespace RuntimeAttachSpec

def tcpPortKey (spec : RuntimeAttachSpec) : String := s!"{spec.containerPort}/tcp"

def containerListenEndpoint (spec : RuntimeAttachSpec) : String :=
  s!"{spec.scheme}://{spec.containerListenIp}:{spec.containerPort}"

end RuntimeAttachSpec

def AttachEndpoint.display (e : AttachEndpoint) : String := s!"{e.scheme}://{e.hostIp}:{e.hostPort}"

namespace RuntimeKind

/-- `RUNTIME_PROFILES`, in its order. -/
def variants : List RuntimeKind := [.opencode, .codex]

def asStr : RuntimeKind → String
  | opencode => "opencode"
  | codex => "codex"

def attachSpec : RuntimeKind → RuntimeAttachSpec
  | opencode => ⟨"http", CONTAINER_LISTEN_IP, 4096⟩
  | codex => ⟨"ws", CONTAINER_LISTEN_IP, 1455⟩

/-- `runtime_kind_from_name`. -/
def fromName (value : String) : Option RuntimeKind := variants.find? fun kind => kind.asStr == value

def supportedRuntimeNames : String :=
  " and ".intercalate (variants.map fun kind => "`" ++ kind.asStr ++ "`")

def supportedValuesPlaceholder : String := "<" ++ "|".intercalate (variants.map asStr) ++ ">"

/-- `FromStr`. -/
def parse (value : String) : Except Error RuntimeKind :=
  if isBlank value then .error (.msg "malformed runtime label: `io.agentbox.runtime` is empty")
  else match fromName value with
    | some kind => .ok kind
    | none => .error (.msg ("unsupported runtime `" ++ value ++ "`; supported runtimes are " ++
        supportedRuntimeNames))

def serverCommand : RuntimeKind → List String
  | opencode => ["opencode", "serve", "--hostname", opencode.attachSpec.containerListenIp, "--port",
      s!"{opencode.attachSpec.containerPort}"]
  | codex => ["codex", YOLO_FLAG, "app-server", "--listen",
      codex.attachSpec.containerListenEndpoint]

def hostClientCommand (endpoint : AttachEndpoint) : RuntimeKind → List String
  | opencode => ["opencode", "attach", endpoint.display]
  | codex => ["codex", YOLO_FLAG, "--remote", endpoint.display, "--remote-auth-token-env",
      CODEX_REMOTE_TOKEN_ENV]

theorem parse_asStr (kind : RuntimeKind) : parse kind.asStr = .ok kind := by cases kind <;> decide

end RuntimeKind

end Agentbox.Runtime.Kind
