import Attribution.Event.Added

namespace Attribution

/-- Who listens: the one that sends events, or another under a name of its own. -/
inductive ListenerName where
  | emitter
  | named (name : String)
  deriving DecidableEq, Repr

/-- The listener as the log shows it. -/
def ListenerName.shown : ListenerName → String
  | .emitter => "<emitter>"
  | .named name => "<listener " ++ name ++ ">"

mutual

/-- What a listener does, step by step. -/
inductive Reaction where
  | done
  | fail (text : String)
  | subscribe (listener : Listener) (next : Reaction)
  | remove (key : ContainerKey) (next : Reaction)
  | reset (next : Reaction)
  | add (record : ContainerRecord) (next : Reaction)
  /-- Asks the gate of the cache and goes on with its answer. -/
  | gate (key : ContainerKey) (next : Bool → Reaction)
  /-- Gives the announced record another name. -/
  | rename (name : String) (next : Reaction)
  | send (event : Event) (next : Reaction)

inductive Listener where
  | mk (name : ListenerName) (react : ContainerRecord → Option Thread → Reaction)

end

namespace Listener

def name : Listener → ListenerName
  | .mk name _ => name

def react : Listener → ContainerRecord → Option Thread → Reaction
  | .mk _ react => react

def plain (name : String) : Listener := .mk (.named name) fun _ _ => .done

/-- Fails at every announcement. -/
def failing (name : String) : Listener := .mk (.named name) fun _ _ => .fail ("boom " ++ name)

def subscribing (name : String) : Listener :=
  .mk (.named name) fun _ _ => .subscribe (plain (name ++ "+")) .done

def resetting (name : String) : Listener := .mk (.named name) fun _ _ => .reset .done

def asking (name : String) : Listener := .mk (.named name) fun record _ => .gate record.key fun _ => .done

/-- Sends an event for every announced container, under the name of a host. -/
def emitting (hostname : String) : Listener :=
  .mk .emitter fun record thread =>
    let event := Event.build hostname record thread
    if event.numbers.all Text.writable then .send event .done
    else .fail Fault.unwritable.message

end Listener
end Attribution
