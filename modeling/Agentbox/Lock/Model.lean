import Agentbox.Lib.Transition

/-! # Workspace lock files

The processes that share one lock directory. A process takes the workspace lock in three steps of
the operating system (`WorkspaceLockStore::lock_digest` opens or creates the file,
`WorkspaceLock::guard` takes the exclusive `flock` and then compares the opened inode with the inode
at the path), and `agentbox clean` removes an unused lock file in three others
(`remove_cleanup_lock_file`: open, `try_write`, unlink). The inventory of `clean` takes and drops
each lock (`cleanup_lock_file_status`). Steps of different processes interleave in any order, and a
process may end at any point; the lock of an open file is released with it.

An `flock` belongs to an inode, a name of the directory can be unlinked while the inode is open, and
a file created at an unlinked name has a fresh inode. -/

namespace Agentbox.Lock.Model

open Agentbox.Lib.Transition

/-- An inode number. -/
abbrev Ino := Nat

/-- Where a process is in the code of `lock.rs`: the path it opened and the inode it got. -/
inductive Phase (Path : Type)
  | idle
  /-- `lock_digest` returned: the lock file is open. -/
  | opened (path : Path) (ino : Ino)
  /-- `guard` took the `flock`, and has yet to look at the path. -/
  | locked (path : Path) (ino : Ino)
  /-- `guard` returned a `WorkspaceLockGuard`. -/
  | held (path : Path) (ino : Ino)
  /-- `guard` found another file at the path; its lock is dropped with the error. -/
  | stale (path : Path) (ino : Ino)
  /-- `remove_cleanup_lock_file` opened the existing file. -/
  | cleanOpened (path : Path) (ino : Ino)
  /-- `remove_cleanup_lock_file` got the lock from `try_write`. -/
  | cleanLocked (path : Path) (ino : Ino)
  /-- `remove_cleanup_lock_file` unlinked the path and has yet to drop the lock. -/
  | cleanRemoved (path : Path) (ino : Ino)
  /-- `cleanup_lock_file_status` opened the existing file. -/
  | statusOpened (path : Path) (ino : Ino)
  /-- `cleanup_lock_file_status` got the lock from `try_write`. -/
  | statusLocked (path : Path) (ino : Ino)
  deriving DecidableEq

/-- The inode whose `flock` a process at this point holds. -/
def Phase.flocked {Path : Type} : Phase Path → Option Ino
  | .locked _ i | .held _ i | .stale _ i | .cleanLocked _ i | .cleanRemoved _ i
  | .statusLocked _ i => some i
  | .idle | .opened _ _ | .cleanOpened _ _ | .statusOpened _ _ => none

/-- The steps a process can take. -/
inductive Op (Path : Type)
  /-- `open_lock_file`: open the path, or create it with a fresh inode. -/
  | openLockFile (path : Path)
  /-- `RwLock::write`: wait for the `flock` of the opened inode and take it. -/
  | write
  /-- `lock_file_still_at_path`. -/
  | stillAtPath
  /-- `open_existing_workspace_lock_file` in `remove_cleanup_lock_file`. -/
  | openExisting (path : Path)
  /-- `RwLock::try_write` in `remove_cleanup_lock_file`. -/
  | tryWrite
  /-- `std::fs::remove_file` in `remove_cleanup_lock_file`. -/
  | removeFile
  /-- `open_existing_workspace_lock_file` in `cleanup_lock_file_status`. -/
  | openStatus (path : Path)
  /-- `RwLock::try_write` in `cleanup_lock_file_status`. -/
  | tryStatus
  /-- The file is closed and its lock dropped: the end of a guard's scope, or of the process. -/
  | drop
  deriving DecidableEq

/-- The lock directory, the locks of the inodes, and the processes. -/
structure State (Pid Path : Type) where
  /-- The inode at each name of the directory. -/
  names : Path → Option Ino
  /-- The next inode the file system hands out. -/
  fresh : Ino
  /-- The process that holds the exclusive `flock` of an inode. -/
  flock : Ino → Option Pid
  phase : Pid → Phase Path

variable {Pid Path : Type} [DecidableEq Pid] [DecidableEq Path]

/-- No process runs, and no lock file exists. -/
def State.empty : State Pid Path where
  names _ := none
  fresh := 0
  flock _ := none
  phase _ := .idle

def State.setPhase (s : State Pid Path) (p : Pid) (ph : Phase Path) : State Pid Path :=
  { s with phase := Function.update s.phase p ph }

/-- The open of a path that exists; `Missing`, and nothing done, if it does not. -/
def State.openAt (s : State Pid Path) (p : Pid) (path : Path) (ph : Path → Ino → Phase Path) :
    State Pid Path :=
  match s.names path with
  | some i => s.setPhase p (ph path i)
  | none => s

/-- The `flock` of inode `i` for process `p`, which goes on at `ph`. -/
def State.take (s : State Pid Path) (p : Pid) (i : Ino) (ph : Phase Path) : State Pid Path :=
  { s.setPhase p ph with flock := Function.update s.flock i (some p) }

/-- The end of a file's scope: process `p` is idle, and the lock it held is free. -/
def State.close (s : State Pid Path) (p : Pid) : State Pid Path :=
  match (s.phase p).flocked with
  | some i => { s.setPhase p .idle with flock := Function.update s.flock i none }
  | none => s.setPhase p .idle

/-- One step of one process, if it is enabled. -/
def step (s : State Pid Path) (a : Pid × Op Path) : Option (State Pid Path) :=
  match s.phase a.1, a.2 with
  | .idle, .openLockFile path =>
    match s.names path with
    | some i => some (s.setPhase a.1 (.opened path i))
    | none => some { s.setPhase a.1 (.opened path s.fresh) with
        names := Function.update s.names path (some s.fresh)
        fresh := s.fresh + 1 }
  | .opened path i, .write => if s.flock i = none then some (s.take a.1 i (.locked path i)) else none
  | .locked path i, .stillAtPath =>
    some (s.setPhase a.1 (if s.names path = some i then .held path i else .stale path i))
  | .idle, .openExisting path => some (s.openAt a.1 path .cleanOpened)
  | .cleanOpened path i, .tryWrite =>
    -- `WouldBlock` ends the removal with `Locked`
    some (if s.flock i = none then s.take a.1 i (.cleanLocked path i) else s.close a.1)
  | .cleanLocked path i, .removeFile =>
    some { s.setPhase a.1 (.cleanRemoved path i) with names := Function.update s.names path none }
  | .idle, .openStatus path => some (s.openAt a.1 path .statusOpened)
  | .statusOpened path i, .tryStatus =>
    some (if s.flock i = none then s.take a.1 i (.statusLocked path i) else s.close a.1)
  | _, .drop => some (s.close a.1)
  | _, _ => none

/-- The processes `Pid` over the lock paths `Path`, from an empty lock directory. -/
def locks (Pid Path : Type) [DecidableEq Pid] [DecidableEq Path] :
    System (State Pid Path) (Pid × Op Path) :=
  System.ofStep State.empty step

/-- Process `p` holds a `WorkspaceLockGuard` for `path`. -/
def Holds (s : State Pid Path) (p : Pid) (path : Path) : Prop := ∃ i, s.phase p = .held path i

/-- At most one process holds the guard of each path. -/
def Exclusive (s : State Pid Path) : Prop :=
  ∀ path p q, Holds s p path → Holds s q path → p = q

/-- The unlink of `remove_cleanup_lock_file` is taken only while no process holds the guard of the
path; the other steps are free. -/
def UnlinkFree (s : State Pid Path) (a : Pid × Op Path) : Prop :=
  ∀ path i, s.phase a.1 = .cleanLocked path i → a.2 = .removeFile → ∀ q, ¬ Holds s q path

end Agentbox.Lock.Model
