import Attribution.Container.Record
import Attribution.Container.Thread
import Attribution.Event.Sanitize
import Attribution.Event.Stamp
import Attribution.Json.Writer

namespace Attribution

/-- What an event tells of a thread. -/
structure ThreadView where
  tid : Int
  pid : Int
  comm : String
  deriving DecidableEq, Repr

/-- An event without the marks of the moment it is sent at. -/
structure Event where
  hostname : String
  thread : Option ThreadView
  container : ContainerRecord
  deriving DecidableEq, Repr

namespace Event

def cleanLabels (labels : Assoc String String) : Assoc String String :=
  Assoc.ofPairs (labels.map fun l => (sanitize maxText l.1, sanitize maxText l.2))

def cleanMount (m : Mount) : Mount where
  source := sanitize maxPath m.source
  destination := sanitize maxPath m.destination
  mode := sanitize maxText m.mode
  readWrite := m.readWrite
  propagation := sanitize maxText m.propagation

def cleanRecord (r : ContainerRecord) : ContainerRecord :=
  { r with
    id := sanitize maxText r.id
    fullId := sanitize maxText r.fullId
    name := sanitize maxText r.name
    image := sanitize maxText r.image
    imageRepo := sanitize maxPath r.imageRepo
    imageTag := sanitize maxText r.imageTag
    imageDigest := sanitize maxText r.imageDigest
    labels := cleanLabels r.labels
    mounts := r.mounts.map cleanMount
    env := r.env.map (sanitize maxEnv) }

def viewThread (t : Thread) : ThreadView := ⟨t.tid, t.pid, sanitize maxText t.comm⟩

def build (hostname : String) (record : ContainerRecord) (thread : Option Thread) : Event where
  hostname := sanitize maxText hostname
  thread := thread.map viewThread
  container := cleanRecord record

def threadJson : Option ThreadView → Json
  | none => .null
  | some t => .object [("tid", .integer t.tid), ("pid", .integer t.pid), ("comm", .text t.comm)]

def mountJson (m : Mount) : Json :=
  .object [("source", .text m.source), ("destination", .text m.destination), ("mode", .text m.mode),
    ("rw", .bool m.readWrite), ("propagation", .text m.propagation)]

def limitsJson (l : Limits) : Json :=
  .object [("memory", .integer l.memory), ("cpu_shares", .integer l.cpuShares),
    ("cpu_quota", .integer l.cpuQuota), ("cpu_period", .integer l.cpuPeriod),
    ("cpuset_cpu_count", .integer l.cpusetCount)]

def containerJson (r : ContainerRecord) : Json :=
  .object [("id", .text r.id), ("full_id", .text r.fullId), ("name", .text r.name),
    ("type", .text r.type.name), ("image", .text r.image), ("image_repo", .text r.imageRepo),
    ("image_tag", .text r.imageTag), ("image_digest", .text r.imageDigest),
    ("labels", .object (r.labels.map fun l => (l.1, .text l.2))),
    ("mounts", .array (r.mounts.map mountJson)), ("env", .array (r.env.map .text)),
    ("limits", limitsJson r.limits), ("lookup_state", .text r.lookupState.name)]

def schemaVersion : String := "1.0"

def eventType : String := "container_added"

def toJson (stamp : Stamp) (e : Event) : Json :=
  .object [("event_id", .text stamp.eventId), ("schema_version", .text schemaVersion),
    ("timestamp", .text stamp.timestamp), ("event_type", .text eventType),
    ("hostname", .text e.hostname), ("thread", threadJson e.thread),
    ("container", containerJson e.container)]

/-- The numbers of an event. -/
def numbers (e : Event) : List Int :=
  (e.thread.elim [] fun t => [t.tid, t.pid]) ++
    [e.container.limits.memory, e.container.limits.cpuShares, e.container.limits.cpuQuota,
      e.container.limits.cpuPeriod, e.container.limits.cpusetCount]

/-- The line that an event is sent as. An event with a number of too many digits has none. -/
def line (stamp : Stamp) (e : Event) : Except Fault String :=
  if e.numbers.all Text.writable then .ok (Json.render (e.toJson stamp)) else .error .unwritable

end Event
end Attribution
