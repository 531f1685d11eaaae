import Agentbox.Files.Snapshot

/-! # Signing keys

`ssh_signing/signing_key.rs`: the public key that a value of `user.signingkey` stands for. A private
key is never read. -/

namespace Agentbox.SshSigning.SigningKey

open Agentbox.Base.Text Agentbox.Base.Path Agentbox.Base.Errors Agentbox.Files.Snapshot

/-- What the passthroughs ask of the host; `environment` is `std::env::var_os`. -/
structure PassthroughHost where
  environment : String → Option OsPath
  gitConfig : Utf8Path → String → Except Error (Option String)
  gitConfigPath : Utf8Path → String → Except Error (Option String)
  isFile : Utf8Path → Bool
  canOpen : Utf8Path → Bool
  readToString : Utf8Path → Option String
  connectableUnixSocket : Utf8Path → Bool
  /-- The file that `known_hosts::prepare` writes, if it has any line. -/
  knownHostsFile : Utf8Path → Option String

/-- `Utf8Path::extension`: a name that starts with its only dot has none. -/
def extension (path : Utf8Path) : Option String :=
  path.fileName.bind fun name =>
    let reversed := name.toList.reverse
    match reversed.dropWhile (· ≠ '.') with
    | [] | [_] => none
    | _ :: _ :: _ => some (String.ofList (reversed.takeWhile (· ≠ '.')).reverse)

def isSshPublicKeyLiteral (value : String) : Bool :=
  let value := match value.toList with
    | 'k' :: 'e' :: 'y' :: ':' :: ':' :: rest => rest
    | l => l
  match (value.splitOnP isWhitespace).filter (· ≠ []) with
  | [] => false
  | word :: _ =>
    let keyType := String.ofList word
    keyType == "ssh-rsa" || keyType == "ssh-ed25519" || startsWith keyType "ecdsa-sha2-" ||
      startsWith keyType "sk-"

section
variable (host : PassthroughHost)

def readPublicKeyFile (path : Utf8Path) : Option String :=
  (host.readToString path).bind fun contents =>
    let lines := (contents.toList.splitOn '\n').map fun line => trim (String.ofList line)
    (lines.find? (· ≠ "")).filter isSshPublicKeyLiteral

def publicKeyForPath (path : Utf8Path) : Option String :=
  if extension path = some "pub" then readPublicKeyFile host path
  else
    let publicKeyPath : Utf8Path := ⟨path.asStr ++ ".pub"⟩
    if host.isFile publicKeyPath then readPublicKeyFile host publicKeyPath else none

def signingKeyPath (value : String) (gitRoot : Utf8Path) (home : Option Utf8Path) :
    Option Utf8Path :=
  let path : Option Utf8Path := match value.toList with
    | ['~'] => home
    | '~' :: '/' :: rest => home.map fun (home : Utf8Path) => home.join ⟨String.ofList rest⟩
    | '~' :: _ => none
    | _ => some ⟨value⟩
  path.map fun path => if path.isAbsolute then path else gitRoot.join path

def normalizeSigningKeyValue (value : String) (gitRoot : Utf8Path) (home : Option Utf8Path) :
    Option String :=
  let value := trim value
  if value = "" then none
  else if isSshPublicKeyLiteral value then some value
  else (signingKeyPath value gitRoot home).bind (publicKeyForPath host)

end

end Agentbox.SshSigning.SigningKey
