import Std.Data.ExtTreeMap
import Agentbox.Base.Text

/-! # Label names and values

The names and the fixed values of the labels that agentbox writes on containers and reads back, and
the reading of one label: a blank value counts as an absent one. -/

namespace Agentbox.Metadata.Labels

open Agentbox.Base.Text

/-- A `BTreeMap<String, String>`. -/
abbrev LabelMap := Std.ExtTreeMap String String compare

def LABEL_MANAGED : String := "io.agentbox.managed"
def LABEL_CONTAINER_KIND : String := "io.agentbox.container_kind"
def LABEL_SCHEMA : String := "io.agentbox.schema"
def LABEL_GIT_ROOT : String := "io.agentbox.git_root"
def LABEL_GIT_ROOT_HASH : String := "io.agentbox.git_root_hash"
def LABEL_RUNTIME : String := "io.agentbox.runtime"
def LABEL_IMAGE : String := "io.agentbox.image"
def LABEL_LAUNCH_DIRECTORY : String := "io.agentbox.launch_directory"
def LABEL_LOGICAL_NAME : String := "io.agentbox.logical_name"
def LABEL_ATTACH_SCHEME : String := "io.agentbox.attach_scheme"
def LABEL_CONTAINER_PORT : String := "io.agentbox.container_port"
def LABEL_CONTAINER_LISTEN_IP : String := "io.agentbox.container_listen_ip"
def LABEL_SERVER_ARGS : String := "io.agentbox.server_args"
def LABEL_RESOURCE_LIMIT_CPUS : String := "io.agentbox.resource_limits.cpus"
def LABEL_RESOURCE_LIMIT_MEMORY : String := "io.agentbox.resource_limits.memory"

def LABEL_MANAGED_VALUE : String := "true"
def LABEL_CONTAINER_KIND_MANAGED_SESSION_VALUE : String := "managed-session"
def LABEL_CONTAINER_KIND_TRANSIENT_RUN_VALUE : String := "transient-run"
def LABEL_SCHEMA_VALUE : String := "1"

def REQUIRED_SESSION_WORKSPACE_IDENTITY_LABELS : List String := [LABEL_GIT_ROOT, LABEL_GIT_ROOT_HASH]

def REQUIRED_SESSION_METADATA_LABELS : List String :=
  [LABEL_IMAGE, LABEL_LAUNCH_DIRECTORY, LABEL_LOGICAL_NAME]

inductive AgentboxContainerKind
  | managed
  | run
  deriving DecidableEq, Repr

/-- `required_label_value`. -/
def requiredLabelValue (labels : LabelMap) (name : String) : Option String :=
  labels[name]?.filter fun value => !isBlank value

/-- `agentbox_container_kind_from_labels`. -/
def agentboxContainerKindFromLabels (labels : LabelMap) : Option AgentboxContainerKind :=
  if requiredLabelValue labels LABEL_MANAGED = some LABEL_MANAGED_VALUE then some .managed
  else if requiredLabelValue labels LABEL_CONTAINER_KIND =
      some LABEL_CONTAINER_KIND_TRANSIENT_RUN_VALUE then some .run
  else none

theorem requiredLabelValue_of_get {labels : LabelMap} {name value : String}
    (h : labels[name]? = some value) (hb : isBlank value = false) :
    requiredLabelValue labels name = some value := by
  rw [requiredLabelValue, h, Option.filter_some, hb]
  rfl

theorem requiredLabelValue_eq_some {labels : LabelMap} {name value : String} :
    requiredLabelValue labels name = some value ↔
      labels[name]? = some value ∧ isBlank value = false := by
  rw [requiredLabelValue, Option.filter_eq_some_iff, Bool.not_eq_true']

end Agentbox.Metadata.Labels
