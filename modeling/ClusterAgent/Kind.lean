/-
  ClusterAgent/Kind.lean
  ======================
  **The table of resource kinds.**

  A request names a kind such as `configMap`.  The table says what the kind is
  called in messages, under which plural the cluster knows it, whether its objects
  live in namespaces, which actions it has, and under which label its changes are
  reported.
-/
namespace ClusterAgent

/-- What can be asked of a resource. -/
inductive Action where
  | list
  | get
  | delete
  | updateYaml
  | updateObj
  | exec
  | stdin
  | openLog
  | closeLog
deriving DecidableEq, Repr, Inhabited

def Action.name : Action → String
  | .list => "list"
  | .get => "get"
  | .delete => "delete"
  | .updateYaml => "update_yaml"
  | .updateObj => "update_obj"
  | .exec => "exec"
  | .stdin => "stdin"
  | .openLog => "openLog"
  | .closeLog => "closeLog"

/-- A kind of cluster objects. -/
structure Kind where
  resource : String
  display : String
  plural : String
  namespaced : Bool
  actions : List Action
  /-- The label of change events; a kind without one is not watched. -/
  watch : Option String
deriving DecidableEq, Repr, Inhabited

namespace Kind

def scales (k : Kind) : Bool :=
  k.resource == "deployment" || k.resource == "statefulset"

/-! ### The table -/

/-- The actions of kinds that are only read. -/
def readOnly : List Action := [.list, .get]

def editable : List Action := [.list, .get, .updateYaml]

def removable : List Action := [.list, .get, .updateYaml, .delete]

def workload : List Action := [.list, .get, .delete, .updateYaml, .updateObj]

/-- All kinds, in table order. -/
def all : List Kind := [
  ⟨"pod", "Pod", "pods", true, removable, some "pods"⟩,
  ⟨"namespace", "Namespace", "namespaces", false, readOnly, some "namespace"⟩,
  ⟨"node", "Node", "nodes", false, [.list], some "node"⟩,
  ⟨"event", "Event", "events", true, [.list], some "event"⟩,
  ⟨"deployment", "Deployment", "deployments", true, workload, some "deployment"⟩,
  ⟨"statefulset", "StatefulSet", "statefulsets", true, workload, some "statefulset"⟩,
  ⟨"daemonset", "DaemonSet", "daemonsets", true, workload, some "daemonset"⟩,
  ⟨"job", "Job", "jobs", true, workload, some "job"⟩,
  ⟨"cronjob", "CronJob", "cronjobs", true, workload, some "cronjob"⟩,
  ⟨"configMap", "ConfigMap", "configmaps", true, editable, none⟩,
  ⟨"persistentVolume", "PersistentVolume", "persistentvolumes", false, editable, none⟩,
  ⟨"persistentVolumeClaim", "PersistentVolumeClaim", "persistentvolumeclaims", true, editable,
    none⟩,
  ⟨"storageClass", "StorageClass", "storageclasses", false, readOnly, none⟩,
  ⟨"horizontalPodAutoscaler", "HorizontalPodAutoscaler", "horizontalpodautoscalers", true,
    removable, none⟩,
  ⟨"service", "Service", "services", true, removable, some "service"⟩,
  ⟨"ingress", "Ingress", "ingresses", true, removable, some "ingress"⟩,
  ⟨"endpoints", "Endpoints", "endpoints", true, removable, some "endpoints"⟩,
  ⟨"networkpolicy", "NetworkPolicy", "networkpolicies", true, removable, some "networkpolicy"⟩,
  ⟨"serviceaccount", "ServiceAccount", "serviceaccounts", true, removable, some "serviceAccount"⟩,
  ⟨"rolebinding", "RoleBinding", "rolebindings", true, editable, some "rolebinding"⟩,
  ⟨"role", "Role", "roles", true, readOnly, some "role"⟩,
  ⟨"secret", "Secret", "secrets", true, readOnly, none⟩]

def ofResource? (resource : String) : Option Kind :=
  all.find? (·.resource == resource)

def watched : List Kind :=
  all.filter (·.watch.isSome)

end Kind

end ClusterAgent
