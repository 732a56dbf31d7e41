import Attribution.Cache.Basic
import Attribution.Proofs.Table

namespace Attribution

/-- One thing that happens to a cache. -/
inductive CacheEvent where
  | gate (key : ContainerKey)
  | get (key : ContainerKey)
  | add (record : ContainerRecord)
  | remove (key : ContainerKey)
  | reset
  | subscribe (listener : Listener)
  /-- An announcement begins. What its listeners do are events of their own. -/
  | announce (record : ContainerRecord)
  /-- The record that is stored under a key is given another name. -/
  | rename (key : ContainerKey) (name : String)

namespace CacheEvent

/-- Whether the event makes the cache forget a key. -/
def frees (key : ContainerKey) : CacheEvent → Bool
  | .remove k => k = key
  | .reset => true
  | _ => false

/-- Whether the event stores a record under a key. -/
def adds (key : ContainerKey) : CacheEvent → Bool
  | .add record => record.key = key
  | _ => false

/-- Whether a key is stored or reserved behind the event. -/
def claims (key : ContainerKey) : CacheEvent → Bool
  | .gate k => k = key
  | .add record => record.key = key
  | _ => false

/-- Whether the event is about a key. -/
def concerns (key : ContainerKey) : CacheEvent → Bool
  | .gate k | .get k | .remove k | .rename k _ => k = key
  | .add record => record.key = key
  | .reset => true
  | .subscribe _ | .announce _ => false

/-- What the event makes of a record that is stored. -/
def revise (record : ContainerRecord) : CacheEvent → ContainerRecord
  | .rename key name => if key = record.key then { record with name } else record
  | _ => record

end CacheEvent

namespace Cache

/-- Whether a key is stored or reserved. -/
def knows (cache : Cache) (key : ContainerKey) : Bool :=
  (cache.get? key).isSome || cache.isPending key

/-- Gives the record that is stored under a key another name. -/
def rename (cache : Cache) (key : ContainerKey) (name : String) : Cache :=
  match cache.get? key with
  | none => cache
  | some record => { cache with records := cache.records.set key { record with name } }

def apply (cache : Cache) : CacheEvent → Cache
  | .gate key => (cache.shouldLookup key).2
  | .get _ | .announce _ => cache
  | .add record => cache.add record
  | .remove key => cache.remove key
  | .reset => cache.reset
  | .subscribe listener => cache.subscribe listener
  | .rename key name => cache.rename key name

def replay (cache : Cache) (events : List CacheEvent) : Cache := events.foldl apply cache

theorem replay_nil (cache : Cache) : cache.replay [] = cache := rfl

@[simp] theorem replay_cons (cache : Cache) (event : CacheEvent) (events : List CacheEvent) :
    cache.replay (event :: events) = (cache.apply event).replay events := rfl

@[simp] theorem replay_append (cache : Cache) (events later : List CacheEvent) :
    cache.replay (events ++ later) = (cache.replay events).replay later :=
  List.foldl_append

theorem shouldLookup_fst (cache : Cache) (key : ContainerKey) :
    (cache.shouldLookup key).1 = !cache.knows key := by
  by_cases hk : cache.knows key = true
  · have hc : ((cache.get? key).isSome || cache.isPending key) = true := hk
    simp [shouldLookup, hk, hc]
  · have hc : ((cache.get? key).isSome || cache.isPending key) = false := by simpa [knows] using hk
    simp [shouldLookup, hk, hc]

theorem get?_shouldLookup (cache : Cache) (key k : ContainerKey) :
    (cache.shouldLookup key).2.get? k = cache.get? k := by
  unfold shouldLookup
  split <;> rfl

theorem isPending_shouldLookup (cache : Cache) (key k : ContainerKey) :
    (cache.shouldLookup key).2.isPending k =
      (cache.isPending k || (k == key && !cache.knows key)) := by
  unfold shouldLookup
  split
  next hk => simp [knows, hk]
  next hk =>
    have hc : cache.knows key = false := by simpa [knows] using hk
    by_cases he : k = key <;> simp [isPending, hc, he]

theorem get?_add (cache : Cache) (record : ContainerRecord) (key : ContainerKey) :
    (cache.add record).get? key = if key = record.key then some record else cache.get? key :=
  Assoc.find?_set cache.records record.key key record

theorem isPending_filter (cache : Cache) (key k : ContainerKey) :
    (cache.pending.filter (· != key)).contains k = (cache.isPending k && k != key) := by
  by_cases hk : k = key <;> simp [isPending, hk]

theorem isPending_add (cache : Cache) (record : ContainerRecord) (key : ContainerKey) :
    (cache.add record).isPending key = (cache.isPending key && key != record.key) :=
  isPending_filter cache record.key key

theorem get?_remove_of_ne {cache : Cache} {key k : ContainerKey} (h : k ≠ key) :
    (cache.remove key).get? k = cache.get? k :=
  Assoc.find?_erase_of_ne h

theorem isPending_remove (cache : Cache) (key k : ContainerKey) :
    (cache.remove key).isPending k = (cache.isPending k && k != key) :=
  isPending_filter cache key k

theorem get?_rename (cache : Cache) (key k : ContainerKey) (name : String) :
    (cache.rename key name).get? k =
      if k = key then (cache.get? key).map ({ · with name }) else cache.get? k := by
  unfold rename
  split
  next hn =>
    by_cases hk : k = key
    · simp [hk, hn]
    · simp [hk]
  next record hs =>
    refine (Assoc.find?_set cache.records key k _).trans ?_
    rw [hs]
    rfl

theorem isPending_rename (cache : Cache) (key k : ContainerKey) (name : String) :
    (cache.rename key name).isPending k = cache.isPending k := by
  unfold rename
  split <;> rfl

/-- What the cache says of a key changes only by events that are about it. -/
theorem get?_apply_of_not_concerns {cache : Cache} {event : CacheEvent} {key : ContainerKey}
    (h : event.concerns key = false) : (cache.apply event).get? key = cache.get? key := by
  cases event with
  | gate k => exact get?_shouldLookup cache k key
  | get => rfl
  | add record =>
    have hk : key ≠ record.key := by simpa [CacheEvent.concerns, eq_comm] using h
    exact (get?_add cache record key).trans (if_neg hk)
  | remove k => exact get?_remove_of_ne (by simpa [CacheEvent.concerns, eq_comm] using h)
  | reset => simp [CacheEvent.concerns] at h
  | subscribe => rfl
  | announce => rfl
  | rename k name =>
    have hk : key ≠ k := by simpa [CacheEvent.concerns, eq_comm] using h
    exact (get?_rename cache k key name).trans (if_neg hk)

theorem isPending_apply_of_not_concerns {cache : Cache} {event : CacheEvent} {key : ContainerKey}
    (h : event.concerns key = false) : (cache.apply event).isPending key = cache.isPending key := by
  cases event with
  | gate k =>
    have hk : key ≠ k := by simpa [CacheEvent.concerns, eq_comm] using h
    simp [apply, isPending_shouldLookup, hk]
  | get => rfl
  | add record =>
    have hk : key ≠ record.key := by simpa [CacheEvent.concerns, eq_comm] using h
    simp [apply, isPending_add, hk]
  | remove k =>
    have hk : key ≠ k := by simpa [CacheEvent.concerns, eq_comm] using h
    simp [apply, isPending_remove, hk]
  | reset => simp [CacheEvent.concerns] at h
  | subscribe => rfl
  | announce => rfl
  | rename k name => exact isPending_rename cache k key name

/-- What an event elsewhere leaves alone stays through all events elsewhere. -/
theorem replay_of_not_concerns {α : Type} (look : Cache → α) {events : List CacheEvent}
    {key : ContainerKey}
    (hlook : ∀ {cache : Cache} {event : CacheEvent}, event.concerns key = false →
      look (cache.apply event) = look cache)
    (h : ∀ event ∈ events, event.concerns key = false) (cache : Cache) :
    look (cache.replay events) = look cache := by
  induction events generalizing cache with
  | nil => rfl
  | cons event events ih =>
    have hlater := ih (fun e he => h e (List.mem_cons_of_mem event he)) (cache.apply event)
    exact hlater.trans (hlook (h event List.mem_cons_self))

theorem get?_replay_of_not_concerns {cache : Cache} {events : List CacheEvent} {key : ContainerKey}
    (h : ∀ event ∈ events, event.concerns key = false) :
    (cache.replay events).get? key = cache.get? key :=
  replay_of_not_concerns (·.get? key) get?_apply_of_not_concerns h cache

theorem isPending_replay_of_not_concerns {cache : Cache} {events : List CacheEvent}
    {key : ContainerKey} (h : ∀ event ∈ events, event.concerns key = false) :
    (cache.replay events).isPending key = cache.isPending key :=
  replay_of_not_concerns (·.isPending key) isPending_apply_of_not_concerns h cache

theorem knows_apply_of_claims {cache : Cache} {event : CacheEvent} {key : ContainerKey}
    (h : event.claims key = true) : (cache.apply event).knows key = true := by
  cases event with
  | gate k =>
    have hk : k = key := by simpa [CacheEvent.claims] using h
    subst hk
    simp only [knows, apply, get?_shouldLookup, isPending_shouldLookup, beq_self_eq_true,
      Bool.true_and]
    cases (cache.get? k).isSome <;> cases cache.isPending k <;> rfl
  | add record =>
    have hk : record.key = key := by simpa [CacheEvent.claims] using h
    subst hk
    simp [knows, apply, get?_add]
  | _ => simp [CacheEvent.claims] at h

theorem knows_apply_of_not_frees {cache : Cache} {event : CacheEvent} {key : ContainerKey}
    (hk : cache.knows key = true) (h : event.frees key = false) :
    (cache.apply event).knows key = true := by
  by_cases hc : event.concerns key = false
  · rwa [knows, get?_apply_of_not_concerns hc, isPending_apply_of_not_concerns hc]
  · cases event with
    | gate k =>
      exact knows_apply_of_claims (by simpa [CacheEvent.concerns, CacheEvent.claims] using hc)
    | get => exact hk
    | add record =>
      exact knows_apply_of_claims (by simpa [CacheEvent.concerns, CacheEvent.claims] using hc)
    | remove k => simp_all [CacheEvent.concerns, CacheEvent.frees]
    | reset => simp [CacheEvent.frees] at h
    | subscribe => exact hk
    | announce => exact hk
    | rename k name =>
      have he : k = key := by simpa [CacheEvent.concerns] using hc
      subst he
      simpa [knows, apply, get?_rename, isPending_rename] using hk

theorem knows_replay_of_not_frees {cache : Cache} {events : List CacheEvent} {key : ContainerKey}
    (hk : cache.knows key = true) (h : ∀ event ∈ events, event.frees key = false) :
    (cache.replay events).knows key = true := by
  induction events generalizing cache with
  | nil => exact hk
  | cons event events ih =>
    have hn := knows_apply_of_not_frees hk (h event (by simp))
    exact ih hn (fun e he => h e (List.mem_cons_of_mem event he))

end Cache
end Attribution
