import Attribution.Engine.Basic
import Attribution.Program.CommandLine
import Attribution.Log.Level

namespace Attribution

/-- What the program has outside itself. -/
structure Surroundings where
  settings : Settings
  fs : FileSystem
  service : RuntimeService
  hostname : String

/-- What lasts from one run to the next. -/
structure Session where
  cache : Cache := {}
  network : Network := {}

/-- What comes of a run: its exit code or the fault that ends it, and what it writes. -/
structure Run where
  exit : Except Fault Nat
  session : Session
  stdout : List String := []
  stderr : List String := []
  events : List Event := []
  log : List LogLine := []

namespace Program

/-- The number that the name of a directory entry is; entries of other names are left out. -/
def pidOf? (name : String) : Option (Except Fault Int) :=
  if name ≠ "" ∧ name.toList.all Text.isDigitLike then
    match Text.readInteger name.toList with
    | .ok n => some (.ok n)
    | .error .malformed => some (.error (.notInteger name))
    | .error .tooLong => some (.error (.integerTooLong name.length))
  else none

/-- All processes under the root in ascending order, and the lines logged if it cannot be listed. -/
def allPids (fs : FileSystem) (procRoot : String) : Except Fault (List Int × List LogLine) := do
  match ← fs.names procRoot with
  | .error e => return ([], [Log.error "" ("Cannot list " ++ procRoot ++ ": " ++ e.message procRoot)])
  | .ok names =>
    let pids ← (names.filterMap pidOf?).mapM id
    return (pids.mergeSort (· ≤ ·), [])

/-- Where the attribution of a list of processes stands. -/
structure Progress where
  session : Session
  resolved : Nat := 0
  events : List Event := []
  log : List LogLine := []

def resolvedNote (pid : Int) (thread : Thread) : LogLine :=
  Log.debug ""
    ("pid " ++ String.ofList (Text.integerText pid) ++ " → container " ++ thread.containerId)

/-- Adds what an attempt at one process brought. -/
def Progress.advance (p : Progress) (pid : Int) (r : Resolution) : Progress :=
  let found :=
    match r.answer with
    | .ok true => true
    | _ => false
  { session := ⟨r.cache, r.network⟩
    resolved := if found then p.resolved + 1 else p.resolved
    events := p.events ++ r.hearings.flatMap (·.events)
    log := p.log ++ r.log ++ if found then [resolvedNote pid r.thread] else [] }

/-- Attributes the processes one after the other, up to the first fault. -/
def resolveAll (world : Surroundings) (engine : Engine) (procRoot : String) (p : Progress) :
    List Int → Progress × Option Fault
  | [] => (p, none)
  | pid :: pids =>
    match Thread.read world.fs procRoot pid with
    | .error fault => (p, some fault)
    | .ok thread =>
      let r :=
        engine.resolve world.service (Engine.hostLimits world.fs world.settings) p.session.network
          p.session.cache thread
      match r.answer with
      | .error fault => (p.advance pid r, some fault)
      | .ok _ => resolveAll world engine procRoot (p.advance pid r) pids

def summary (checked resolved found : Nat) : List LogLine :=
  [Log.info "" ("Processes checked  : " ++ toString checked),
    Log.info "" ("Processes resolved : " ++ toString resolved),
    Log.info "" ("Containers found   : " ++ toString found)]

def closeAll (session : Session) : Session :=
  { session with network := { session.network with channels := session.network.channels.closeAll } }

/-- Attributes processes whose numbers are known. The channels are closed however it ends, once the
engine has started. -/
def scanPids (world : Surroundings) (session : Session) (procRoot : String) (pids : List Int) :
    Run :=
  let cache := session.cache.subscribe (Listener.emitting world.hostname)
  let started := Engine.start world.fs world.service session.network world.settings
  let session : Session := ⟨cache, started.network⟩
  match started.engine with
  | .error fault => { exit := .error fault, session, log := started.log }
  | .ok engine =>
    let log :=
      if engine.client.isNone then
        started.log ++
          [Log.warning "" "No containerd runtime reachable; nothing will resolve."]
      else started.log
    let (p, fault) := resolveAll world engine procRoot { session, log } pids
    let session := closeAll p.session
    match fault with
    | some fault => { exit := .error fault, session, events := p.events, log := p.log }
    | none =>
      { exit := .ok 0, session, events := p.events
        log := p.log ++ summary pids.length p.resolved session.cache.size }

/-- Attributes the processes that a command names. -/
def scan (world : Surroundings) (session : Session) (pids : List Int) (all : Bool) : Run :=
  let procRoot := world.settings.hostRoot ++ world.settings.procRoot
  match if all then allPids world.fs procRoot else .ok (pids, []) with
  | .error fault => { exit := .error fault, session }
  | .ok ([], log) =>
    { exit := .ok 0, session
      log := log ++ [Log.error "" "Nothing to resolve: pass PIDs or --all"] }
  | .ok (pids, log) =>
    let run := scanPids world session procRoot pids
    { run with log := log ++ run.log }

/-- One run with the given arguments. Lines of the log below the level of the settings are left out. -/
def run (world : Surroundings) (session : Session) (args : List String) : Run :=
  match CommandLine.parse args with
  | .help => { exit := .ok 0, session, stdout := CommandLine.helpLines }
  | .misuse reason => { exit := .ok 2, session, stderr := CommandLine.misuseLines reason }
  | .scan pids all =>
    let r := scan world session pids all
    { r with log := r.log.filter (Log.passes (Log.levelOfName world.settings.logLevel)) }

end Program
end Attribution
