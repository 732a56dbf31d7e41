import Attribution.Cache.Listener
import Attribution.Log.Line

namespace Attribution

structure Cache where
  records : Assoc ContainerKey ContainerRecord := []
  /-- The reserved keys. -/
  pending : List ContainerKey := []
  listeners : List Listener := []

namespace Cache

def size (cache : Cache) : Nat := cache.records.length

def get? (cache : Cache) (key : ContainerKey) : Option ContainerRecord := cache.records.find? key

def isPending (cache : Cache) (key : ContainerKey) : Bool := cache.pending.contains key

/-- Reserves a key that is neither stored nor reserved, and says whether it did. -/
def shouldLookup (cache : Cache) (key : ContainerKey) : Bool × Cache :=
  if (cache.get? key).isSome || cache.isPending key then (false, cache)
  else (true, { cache with pending := key :: cache.pending })

/-- Stores a record and releases its key. -/
def add (cache : Cache) (record : ContainerRecord) : Cache :=
  { cache with
    records := cache.records.set record.key record
    pending := cache.pending.filter (· != record.key) }

def remove (cache : Cache) (key : ContainerKey) : Cache :=
  { cache with
    records := cache.records.erase key
    pending := cache.pending.filter (· != key) }

def subscribe (cache : Cache) (listener : Listener) : Cache :=
  { cache with listeners := cache.listeners ++ [listener] }

/-- Forgets all records, reservations and listeners. -/
def reset (_ : Cache) : Cache := {}

end Cache

/-- A thread that belongs to no container yet is given that of the record. -/
def Thread.claim (thread : Thread) (record : ContainerRecord) : Thread :=
  if thread.containerId = "" then { thread with containerId := record.id } else thread

end Attribution
