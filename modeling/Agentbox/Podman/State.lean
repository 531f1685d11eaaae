import Agentbox.Base.Path
import Agentbox.Podman.Model

/-! # The containers of Podman

What Podman holds at one moment. Every container has an id and may have names, no id or name belongs
to two containers, and a command of Podman finds a container by either. -/

namespace Agentbox.Podman.State

open Agentbox.Base.Path Agentbox.Base.Errors Agentbox.Metadata.Labels Agentbox.Podman.Model

structure PodmanContainer where
  id : String
  names : Option (List String)
  labels : LabelMap
  running : Bool
  mounts : List PodmanContainerMount
  ports : PortMap
  workdir : Utf8Path
  command : List String
  /-- Whether agentbox started it. No program can see this. -/
  created : Bool

namespace PodmanContainer

variable (c : PodmanContainer)

/-- What `podman` accepts for the container. -/
def refs : List String := c.id :: c.names.getD []

def containerName : String := (c.names.bind List.head?).getD c.id

def kind : Option AgentboxContainerKind := agentboxContainerKindFromLabels c.labels

/-- Its entry in `podman ps`. -/
def listed : PodmanPsContainer := ⟨c.id, c.names, c.labels⟩

/-- What `podman container inspect` shows. -/
def inspected : PodmanContainerInspect := ⟨c.running, c.labels, c.mounts, c.ports⟩

/-- `managed_label_filter`. -/
def isListedAsManaged : Bool := c.labels[LABEL_MANAGED]? == some LABEL_MANAGED_VALUE

theorem id_mem_refs : c.id ∈ c.refs := List.mem_cons_self

theorem containerName_mem_refs : c.containerName ∈ c.refs := by
  unfold containerName refs
  rcases c.names with _ | (_ | ⟨name, names⟩)
  · exact List.mem_cons_self
  · exact List.mem_cons_self
  · exact List.mem_cons_of_mem _ List.mem_cons_self

end PodmanContainer

structure PodmanState where
  containers : List PodmanContainer
  distinct : (containers.flatMap PodmanContainer.refs).Nodup

namespace PodmanState

variable (s : PodmanState)

def find (ref : String) : Option PodmanContainer := s.containers.find? fun c => c.refs.contains ref

/-- `podman ps --all`, of the containers with the managed label or of all. -/
def listing (managedOnly : Bool) : List PodmanPsContainer :=
  (s.containers.filter fun c => !managedOnly || c.isListedAsManaged).map PodmanContainer.listed

/-- `Podman::inspect_one`. -/
def inspectOne (ref : String) : Except Error PodmanContainerInspect :=
  match s.find ref with
  | some c => .ok c.inspected
  | none => .error (.msg ("no such container `" ++ ref ++ "`"))

variable {s}

theorem eq_of_mem_refs {c c' : PodmanContainer} (hc : c ∈ s.containers) (hc' : c' ∈ s.containers)
    {ref : String} (h : ref ∈ c.refs) (h' : ref ∈ c'.refs) : c = c' := by
  by_contra hne
  have hsymm : Std.Symm (Function.onFun List.Disjoint PodmanContainer.refs) :=
    ⟨fun _ _ hxy => List.Disjoint.symm hxy⟩
  exact (List.nodup_flatMap.1 s.distinct).2.forall hc hc' hne h h'

theorem nodup_containers (s : PodmanState) : s.containers.Nodup := by
  refine (List.nodup_flatMap.1 s.distinct).2.imp fun {a b} h heq => ?_
  subst heq
  exact h a.id_mem_refs a.id_mem_refs

theorem find_eq_some {c : PodmanContainer} {ref : String} :
    s.find ref = some c ↔ c ∈ s.containers ∧ ref ∈ c.refs := by
  constructor
  · intro h
    exact ⟨List.mem_of_find?_eq_some h, by simpa using List.find?_some h⟩
  · rintro ⟨hc, href⟩
    cases hf : s.find ref with
    | none =>
      have hno := List.find?_eq_none.1 hf c hc
      simp [href] at hno
    | some c' =>
      have hc' := List.mem_of_find?_eq_some hf
      have href' : ref ∈ c'.refs := by simpa using List.find?_some hf
      rw [eq_of_mem_refs hc hc' href href']

theorem find_eq_none {ref : String} :
    s.find ref = none ↔ ∀ c ∈ s.containers, ref ∉ c.refs := by
  simp [find, List.find?_eq_none]

theorem inspectOne_of_mem {c : PodmanContainer} (hc : c ∈ s.containers) :
    s.inspectOne c.id = .ok c.inspected := by
  rw [inspectOne, find_eq_some.2 ⟨hc, c.id_mem_refs⟩]

end PodmanState

end Agentbox.Podman.State
