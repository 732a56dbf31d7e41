import Attribution.Assoc
import Attribution.Cgroup.Limits

namespace Attribution

inductive ContainerType where
  | docker
  | containerd
  | crio
  | podman
  deriving DecidableEq, Repr

namespace ContainerType

def all : List ContainerType := [.docker, .containerd, .crio, .podman]

def name : ContainerType → String
  | .docker => "docker"
  | .containerd => "containerd"
  | .crio => "cri-o"
  | .podman => "podman"

def ofName (name : String) : Except Fault ContainerType :=
  match all.find? fun t => t.name == name with
  | some t => .ok t
  | none => .error (.unknownType name)

end ContainerType

inductive LookupState where
  | pending
  | successful
  | failed
  deriving DecidableEq, Repr

namespace LookupState

def all : List LookupState := [.pending, .successful, .failed]

def name : LookupState → String
  | .pending => "pending"
  | .successful => "successful"
  | .failed => "failed"

def ofName (name : String) : Except Fault LookupState :=
  match all.find? fun s => s.name == name with
  | some s => .ok s
  | none => .error (.unknownState name)

end LookupState

structure Mount where
  source : String
  destination : String
  mode : String := ""
  readWrite : Bool := true
  propagation : String := ""
  deriving DecidableEq, Repr

/-- The id is the one that the cgroups show, which may be short; the full id is the runtime's. -/
structure ContainerRecord where
  id : String := ""
  fullId : String := ""
  name : String := ""
  type : ContainerType := .containerd
  image : String := ""
  imageRepo : String := ""
  imageTag : String := ""
  imageDigest : String := ""
  labels : Assoc String String := []
  mounts : List Mount := []
  env : List String := []
  limits : Limits := {}
  lookupState : LookupState := .pending
  deriving DecidableEq, Repr

/-- An id together with the runtime that it belongs to. -/
abbrev ContainerKey := String × ContainerType

def ContainerRecord.key (record : ContainerRecord) : ContainerKey := (record.id, record.type)

end Attribution
