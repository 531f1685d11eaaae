import Agentbox.Base.Path

/-! # Development environments

What the server command of a container is wrapped in. -/

namespace Agentbox.DevEnv.Environment

open Agentbox.Base.Path

inductive DevEnvMode
  | auto
  | none
  deriving DecidableEq, Repr

inductive DevEnvironment
  | none
  | direnv
  | devenv (root : Utf8Path)
  | nixDevelop (flakeRoot : Utf8Path) (attr : String)
  deriving DecidableEq, Repr

/-- `path_flake_ref`. -/
def pathFlakeRef (path : Utf8Path) : String := "path:" ++ path.asStr

def DevEnvironment.wrapArgv (devEnv : DevEnvironment) (argv : List String) : List String :=
  match devEnv with
  | none => argv
  | direnv => ["direnv", "exec", "."] ++ argv
  | devenv _ => ["devenv", "shell", "--no-tui", "--"] ++ argv
  | nixDevelop flakeRoot attr =>
    ["nix", "develop", "--no-write-lock-file", pathFlakeRef flakeRoot ++ "#" ++ attr,
      "--command"] ++ argv

end Agentbox.DevEnv.Environment
