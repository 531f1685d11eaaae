import Agentbox.Runtime.Kind

/-! # What Podman reports

The parts of `podman ps` and `podman container inspect` that agentbox reads. -/

namespace Agentbox.Podman.Model

open Agentbox.Base.Text Agentbox.Base.Errors Agentbox.Metadata.Labels Agentbox.Runtime.Kind

structure PodmanPsContainer where
  id : String
  names : Option (List String)
  labels : LabelMap

inductive PodmanContainerMountKind
  | bind
  | volume
  | other (value : String)
  deriving DecidableEq, Repr

structure PodmanContainerMount where
  kind : PodmanContainerMountKind
  destination : String
  deriving DecidableEq, Repr

structure PodmanPortBinding where
  hostIp : Option String
  hostPort : Option String
  deriving DecidableEq, Repr

abbrev PortMap := Std.ExtTreeMap String (Option (List PodmanPortBinding)) compare

structure PodmanContainerInspect where
  running : Bool
  labels : LabelMap
  mounts : List PodmanContainerMount
  ports : PortMap

def PodmanContainerMountKind.isVolume : PodmanContainerMountKind → Bool
  | volume => true
  | _ => false

structure PodmanPublishedPort where
  hostIp : String
  hostPort : Nat
  deriving DecidableEq, Repr

/-- `published_host_port`. -/
def publishedHostPort (ports : PortMap) (portKey : String) :
    Except Error (Option PodmanPublishedPort) :=
  match (ports[portKey]?.join.bind fun bindings => bindings.find? fun b => b.hostPort.isSome) with
  | none => .ok none
  | some binding =>
    match binding.hostPort with
    | none => .error (.msg ("missing host port for `" ++ portKey ++ "`"))
    | some text =>
      match readU16 text with
      | .error error => .error (.msg ("malformed published host port: " ++ error))
      | .ok hostPort => .ok (some
          ⟨(binding.hostIp.filter fun ip => !isBlank ip).getD DEFAULT_HOST_ATTACH_IP, hostPort⟩)

/-- `published_attach_endpoint`. -/
def publishedAttachEndpoint (ports : PortMap) (attach : RuntimeAttachSpec) :
    Except Error (Option AttachEndpoint) :=
  (publishedHostPort ports attach.tcpPortKey).map fun published =>
    published.map fun port => ⟨attach.scheme, port.hostIp, port.hostPort⟩

/-- `has_volume_mount_destination`. -/
def hasVolumeMountDestination (mounts : List PodmanContainerMount) (destination : String) : Bool :=
  mounts.any fun mount => mount.kind.isVolume && mount.destination == destination

end Agentbox.Podman.Model
