import Attribution.Cache.Basic

namespace Attribution

/-- How the call of one listener went. -/
structure Hearing where
  listener : ListenerName
  record : ContainerRecord
  thread : Option Thread
  /-- The answers that the gate gave the listener. -/
  gates : List Bool := []
  events : List Event := []
  failure : Option String := none
  deriving DecidableEq, Repr

/-- Where an announcement stands: the cache, the record, and whether the cache stores this very
record, so that a change of the one is a change of the other. -/
structure Announcement where
  cache : Cache
  record : ContainerRecord
  held : Bool

namespace Announcement

/-- Changes the record, and what is stored with it. -/
def setRecord (a : Announcement) (record : ContainerRecord) : Announcement :=
  { a with
    record
    cache :=
      if a.held then { a.cache with records := a.cache.records.set a.record.key record }
      else a.cache }

/-- Carries out the steps of a listener. -/
def perform (a : Announcement) (hearing : Hearing) : Reaction → Announcement × Hearing
  | .done => (a, hearing)
  | .fail text => (a, { hearing with failure := some text })
  | .subscribe listener next =>
    perform { a with cache := a.cache.subscribe listener } hearing next
  | .remove key next =>
    perform { a with cache := a.cache.remove key, held := a.held && key != a.record.key } hearing next
  | .reset next => perform { a with cache := a.cache.reset, held := false } hearing next
  | .add record next =>
    perform { a with cache := a.cache.add record, held := a.held && record.key != a.record.key }
      hearing next
  | .gate key next =>
    let (answer, cache) := a.cache.shouldLookup key
    perform { a with cache } { hearing with gates := hearing.gates ++ [answer] } (next answer)
  | .rename name next => perform (a.setRecord { a.record with name }) hearing next
  | .send event next => perform a { hearing with events := hearing.events ++ [event] } next

/-- Calls one listener. -/
def tell (thread : Option Thread) (a : Announcement) (listener : Listener) :
    Announcement × Hearing :=
  a.perform ⟨listener.name, a.record, thread, [], [], none⟩ (listener.react a.record thread)

def tellAll (thread : Option Thread) (a : Announcement) :
    List Listener → Announcement × List Hearing
  | [] => (a, [])
  | listener :: listeners =>
    let (a, hearing) := a.tell thread listener
    let (a, hearings) := tellAll thread a listeners
    (a, hearing :: hearings)

end Announcement

/-- The line that is logged for a listener that failed. -/
def Hearing.warning? (h : Hearing) : Option LogLine :=
  h.failure.map fun text =>
    Log.warning "cache"
      ("New container listener " ++ h.listener.shown ++ " failed for " ++ h.record.id ++ ": " ++ text)

/-- Announces a record; `held` says whether the cache stores this very record. -/
def Cache.announce (cache : Cache) (record : ContainerRecord) (held : Bool)
    (thread : Option Thread) : Cache × List Hearing :=
  let (a, hearings) := Announcement.tellAll thread ⟨cache, record, held⟩ cache.listeners
  (a.cache, hearings)

/-- The lines that an announcement logs. -/
def warnings (hearings : List Hearing) : List LogLine := hearings.filterMap Hearing.warning?

end Attribution
