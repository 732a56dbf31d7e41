import Attribution.Cache.Announce
import Attribution.Container.Normalize
import Attribution.Engine.Discovery

namespace Attribution

structure Engine where
  settings : Settings
  client : Option Client
  deriving DecidableEq, Repr

/-- Where the limits of a container come from. -/
abbrev LimitsSource := LimitsKey → Except Fault Limits

structure Startup where
  engine : Except Fault Engine
  network : Network
  log : List LogLine := []

/-- What comes of an attempt to attribute a thread. -/
structure Resolution where
  answer : Except Fault Bool
  thread : Thread
  network : Network
  cache : Cache
  log : List LogLine := []
  hearings : List Hearing := []
  /-- The keys that limits were asked for under. -/
  asked : List LimitsKey := []

namespace Engine

def start (fs : FileSystem) (service : RuntimeService) (network : Network) (settings : Settings) :
    Startup :=
  let d := discover fs service settings network settings.containerdSockets
  match d.client with
  | .error fault => ⟨.error fault, d.network, d.log⟩
  | .ok none =>
    ⟨.ok ⟨settings, none⟩, d.network,
      d.log ++ [Log.debug "containerd" "containerd: no usable runtime socket found"]⟩
  | .ok (some client) => ⟨.ok ⟨settings, some client⟩, d.network, d.log⟩

def note (id text : String) : LogLine :=
  Log.debug "containerd" ("containerd (" ++ id ++ "): " ++ text)

/-- The one container of a reply, or the line that says why there is not exactly one. -/
def single (id : String) : Except RpcError Wire.ListResponse → Except LogLine Wire.Container
  | .error e => .error (note id ("ListContainers error: " ++ e.message))
  | .ok response =>
    match response.containers with
    | [] => .error (note id "container id has no match")
    | [container] => .ok container
    | containers =>
      .error (note id
        ("container id has more than one match (" ++ toString containers.length ++ ")"))

def limitsKey (id : String) (thread : Thread) : LimitsKey :=
  ⟨id, thread.cgroup "cpu", thread.cgroup "memory", thread.cgroup "cpuset"⟩

/-- Stores a container that is new to the cache, and announces it. -/
def publish (cache : Cache) (record : ContainerRecord) (thread : Thread) :
    Cache × Thread × List Hearing :=
  match cache.shouldLookup (record.id, .containerd) with
  | (false, cache) => (cache, thread, [])
  | (true, cache) =>
    let record := { record with name := record.id, lookupState := .successful }
    let thread := thread.claim record
    let (cache, hearings) := (cache.add record).announce record true (some thread)
    (cache, thread, hearings)

/-- Attributes a thread whose container is known. -/
def complete (engine : Engine) (limits : LimitsSource) (network : Network) (cache : Cache)
    (thread : Thread) (id : String) (container : Wire.Container) : Resolution :=
  let record := ContainerRecord.ofContainer container id engine.settings.labelMaxLength
  let log := ContainerRecord.specWarnings container
  let thread := { thread with containerId := id }
  let key := limitsKey record.id thread
  match limits key with
  | .error fault => { answer := .error fault, thread, network, cache, log, asked := [key] }
  | .ok limits =>
    let (cache, thread, hearings) := publish cache { record with limits } thread
    { answer := .ok true, thread, network, cache, log := log ++ warnings hearings, hearings,
      asked := [key] }

/-- Attributes a thread to its container; the answer is false if that is not possible now. -/
def resolve (engine : Engine) (service : RuntimeService) (limits : LimitsSource)
    (network : Network) (cache : Cache) (thread : Thread) : Resolution :=
  match CgroupLayout.match? containerdLayout thread.cgroups, engine.client with
  | some found, some client =>
    let id := found.containerId
    match client.listByFragment service network id with
    | (.error fault, network) => { answer := .error fault, thread, network, cache }
    | (.ok reply, network) =>
      match single id reply with
      | .error line => { answer := .ok false, thread, network, cache, log := [line] }
      | .ok container => engine.complete limits network cache thread id container
  | _, _ => { answer := .ok false, thread, network, cache }

/-- Being asked is a fault in an engine that no runtime backs. -/
def resolveUnbacked (_ : Thread) : Except Fault Bool := .error .notImplemented

/-- The limits as the cgroup file system of the host has them. -/
def hostLimits (fs : FileSystem) (settings : Settings) : LimitsSource :=
  Limits.read fs (settings.hostRoot ++ settings.cgroupRoot)

end Engine
end Attribution
