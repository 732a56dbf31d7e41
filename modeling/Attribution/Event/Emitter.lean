import Attribution.Event.Added

namespace Attribution

structure Emitter where
  hostname : String := ""
  /-- How many events were sent. -/
  count : Nat := 0
  /-- The time of the last event that was sent. -/
  lastTime : Option String := none
  deriving DecidableEq, Repr

namespace Emitter

/-- The event for a container. -/
def build (emitter : Emitter) (record : ContainerRecord) (thread : Option Thread) : Event :=
  Event.build emitter.hostname record thread

/-- The line to send for a container, and the sender after it. An event that has no line is not
counted. -/
def emit (emitter : Emitter) (stamp : Stamp) (record : ContainerRecord) (thread : Option Thread) :
    Except Fault String × Emitter :=
  match (emitter.build record thread).line stamp with
  | .error fault => (.error fault, emitter)
  | .ok line =>
    (.ok line, { emitter with count := emitter.count + 1, lastTime := some stamp.timestamp })

end Emitter
end Attribution
