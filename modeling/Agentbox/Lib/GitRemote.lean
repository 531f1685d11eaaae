import Mathlib.Algebra.Group.Nat.Defs
import Mathlib.Data.List.Basic
import Mathlib.Data.List.Infix

/-! # SSH remotes of Git

The two syntaxes for a repository that Git reaches over SSH: a URL
`ssh://[user@]host[:port]/path`, also with the scheme `git+ssh`, and the shorter
`[user@]host:path`. In both an IPv6 address stands in brackets. A URL is percent-decoded before it
is taken apart, the other syntax is taken as it stands; `decode` is that decoding.

What is left out of the grammar are texts that Git reads as something else than they seem:
a slash in the user, which begins the path; a colon in the user of `[user@]host:path`, which ends
the host; the text `@[`, which makes Git look for an address, anywhere but before one; a leading
hyphen, which Git refuses; and `name::`, which names a remote helper. -/

namespace Agentbox.Lib.GitRemote

/-- A text after the scheme, or the name of a remote helper, that it begins with. -/
def afterScheme : List Char → List Char
  | [] => []
  | c :: l =>
    if c.isAlpha then
      l.dropWhile fun d => d.isAlphanum || d == '+' || d == '-' || d == '.'
    else c :: l

inductive Scheme
  | ssh
  | gitSsh
  deriving DecidableEq, Repr

def Scheme.text : Scheme → List Char
  | .ssh => "ssh".toList
  | .gitSsh => "git+ssh".toList

inductive Host
  | name (text : List Char)
  /-- An IPv6 address, written in brackets. -/
  | literal (address : List Char)
  deriving DecidableEq, Repr

namespace Host

def text : Host → List Char
  | name text => text
  | literal address => '[' :: address ++ [']']

/-- The host without its brackets. -/
def bare : Host → List Char
  | name text => text
  | literal address => address

def isName : Host → Bool
  | name _ => true
  | literal _ => false

end Host

inductive Remote
  | url (scheme : Scheme) (user : Option (List Char)) (host : Host) (port : Option (List Char))
    (path : List Char)
  | scp (user : Option (List Char)) (host : Host) (path : List Char)

def userText : Option (List Char) → List Char
  | none => []
  | some user => user ++ ['@']

def portText : Option (List Char) → List Char
  | none => []
  | some port => ':' :: port

/-- The number of a list of decimal digits. -/
def decimal (l : List Char) : Nat := l.foldl (fun n c => 10 * n + (c.toNat - '0'.toNat)) 0

namespace Remote

def text : Remote → List Char
  | url scheme user host port path =>
    scheme.text ++ "://".toList ++ (userText user ++ host.text ++ portText port ++ '/' :: path)
  | scp user host path => userText user ++ host.text ++ ':' :: path

/-- The user of a URL has a colon before the one of the port. Git looks for the port after the first
colon that is not in an address, finds none there, and leaves the port where it stands. -/
def HidesPort (decode : List Char → List Char) : Remote → Prop
  | url _ user host port _ =>
    host.isName = true ∧ port.isSome = true ∧ ∃ u ∈ user, ':' ∈ decode u
  | scp _ _ _ => False

instance (decode : List Char → List Char) : ∀ r : Remote, Decidable (r.HidesPort decode)
  | url _ _ _ _ _ => inferInstanceAs (Decidable (_ ∧ _ ∧ _))
  | scp _ _ _ => inferInstanceAs (Decidable False)

/-- **What Git hands to `ssh`**: the host, which `ssh` takes from what follows the last `@`, and the
port. -/
def target (decode : List Char → List Char) : Remote → List Char × Option Nat
  | url scheme user host port path =>
    if (url scheme user host port path).HidesPort decode then
      (decode host.bare ++ portText port, none)
    else (decode host.bare, port.map decimal)
  | scp _ host _ => (host.bare, none)

end Remote

/-! ### Well-formed remotes -/

/-- A host name without the delimiters of a URL, or an address with the two colons at least that
every IPv6 address has. -/
def IsHost : Bool → List Char → Prop
  | true, text => text ≠ [] ∧ text.head? ≠ some '[' ∧ ∀ c ∈ text, c ≠ '/' ∧ c ≠ ':' ∧ c ≠ '@'
  | false, text => 2 ≤ text.count ':' ∧ ∀ c ∈ text, c ≠ '/' ∧ c ≠ '[' ∧ c ≠ ']' ∧ c ≠ '@'

def IsPort (port : List Char) : Prop :=
  port ≠ [] ∧ (∀ c ∈ port, '0' ≤ c ∧ c ≤ '9') ∧ decimal port < 2 ^ 16

/-- A text after which no address in brackets can begin before the one that is meant. -/
def IsUser (user : List Char) : Prop :=
  user ≠ [] ∧ '/' ∉ user ∧ user.head? ≠ some '[' ∧ ¬ "@[".toList <:+: user

/-- What `url` and `scp` ask of the texts that Git takes apart. -/
structure Parts (user : Option (List Char)) (isName : Bool) (host path : List Char) : Prop where
  isUser : ∀ u ∈ user, IsUser u
  isHost : IsHost isName host
  isPath : ¬ "@[".toList <:+: path
  hyphen : (userText user ++ host).head? ≠ some '-'

def Remote.WellFormed (decode : List Char → List Char) : Remote → Prop
  | .url _ user host port path =>
    Parts user host.isName host.bare path ∧
    Parts (user.map decode) host.isName (decode host.bare) (decode path) ∧
    ∀ p ∈ port, IsPort p
  | .scp user host path =>
    Parts user host.isName host.bare path ∧
    (host.isName = true → ∀ u ∈ user, ':' ∉ u) ∧
    ¬ "://".toList <:+: userText user ++ host.text ++ ':' :: path ∧
    ¬ "::".toList <+: afterScheme (userText user ++ host.text ++ ':' :: path)

instance : ∀ isName text, Decidable (IsHost isName text)
  | true, text => @instDecidableAnd _ _ _ (@instDecidableAnd _ _ _ (List.decidableBAll _ text))
  | false, text => @instDecidableAnd _ _ _ (List.decidableBAll _ text)

instance (port : List Char) : Decidable (IsPort port) :=
  @instDecidableAnd _ _ _ (@instDecidableAnd _ _ (List.decidableBAll _ port) _)

instance (user : List Char) : Decidable (IsUser user) := inferInstanceAs (Decidable (_ ∧ _ ∧ _ ∧ _))

theorem parts_iff {user : Option (List Char)} {isName : Bool} {host path : List Char} :
    Parts user isName host path ↔ (∀ u ∈ user, IsUser u) ∧ IsHost isName host ∧
      (¬ "@[".toList <:+: path) ∧ (userText user ++ host).head? ≠ some '-' :=
  ⟨fun h => ⟨h.isUser, h.isHost, h.isPath, h.hyphen⟩, fun h => ⟨h.1, h.2.1, h.2.2.1, h.2.2.2⟩⟩

instance (user : Option (List Char)) (isName : Bool) (host path : List Char) :
    Decidable (Parts user isName host path) := decidable_of_iff _ parts_iff.symm

instance (decode : List Char → List Char) : ∀ r : Remote, Decidable (r.WellFormed decode)
  | .url _ _ _ _ _ => inferInstanceAs (Decidable (_ ∧ _ ∧ _))
  | .scp _ _ _ => inferInstanceAs (Decidable (_ ∧ _ ∧ _ ∧ _))

/-! ### Other remotes -/

/-- A URL of another protocol, or a path of the local file system: a text without a colon, or with a
slash before the first one. -/
inductive IsOther : List Char → Prop
  | url (scheme : String) (h : scheme ∈ ["https", "http", "file", "git"]) (rest : List Char) :
    IsOther (scheme.toList ++ "://".toList ++ rest)
  | localPath (text : List Char) (h : ':' ∈ text → '/' ∈ text.takeWhile (· ≠ ':')) : IsOther text

end Agentbox.Lib.GitRemote
