import Attribution.Cache.Announce
import Attribution.Proofs.Cache.Event

namespace Attribution

namespace Announcement

/-- The record that counts as stored is stored. -/
def Holds (a : Announcement) : Prop := a.held = true → a.cache.get? a.record.key = some a.record

/-- The events of a listener's steps. -/
def events (a : Announcement) : Reaction → List CacheEvent
  | .done | .fail _ => []
  | .subscribe listener next =>
    .subscribe listener :: events { a with cache := a.cache.subscribe listener } next
  | .remove key next =>
    .remove key ::
      events { a with cache := a.cache.remove key, held := a.held && key != a.record.key } next
  | .reset next => .reset :: events { a with cache := a.cache.reset, held := false } next
  | .add record next =>
    .add record ::
      events { a with cache := a.cache.add record, held := a.held && record.key != a.record.key } next
  | .gate key next =>
    .gate key ::
      events { a with cache := (a.cache.shouldLookup key).2 } (next (a.cache.shouldLookup key).1)
  | .rename name next =>
    (if a.held then [.rename a.record.key name] else []) ++
      events (a.setRecord { a.record with name }) next
  | .send _ next => events a next

/-- The events of listeners that are called one after the other. -/
def allEvents (thread : Option Thread) (a : Announcement) : List Listener → List CacheEvent
  | [] => []
  | listener :: listeners =>
    a.events (listener.react a.record thread) ++
      allEvents thread (a.tell thread listener).1 listeners

theorem setRecord_holds (a : Announcement) (name : String) :
    (a.setRecord { a.record with name }).Holds := by
  intro hh
  have hs : a.held = true := hh
  simp only [setRecord, hs, ↓reduceIte]
  exact (Assoc.find?_set _ _ _ _).trans (if_pos rfl)

theorem setRecord_cache {a : Announcement} (ha : a.Holds) (name : String) :
    (a.setRecord { a.record with name }).cache =
      a.cache.replay (if a.held then [.rename a.record.key name] else []) := by
  by_cases hh : a.held = true
  · simp [setRecord, hh, Cache.replay_nil, Cache.apply, Cache.rename, ha hh]
  · simp [setRecord, hh, Cache.replay_nil]

theorem perform_cache (reaction : Reaction) {a : Announcement} (ha : a.Holds) (hearing : Hearing) :
    (a.perform hearing reaction).1.cache = a.cache.replay (a.events reaction) ∧
      (a.perform hearing reaction).1.Holds := by
  fun_induction Announcement.perform a hearing reaction with
  | case1 a hearing => exact ⟨rfl, ha⟩
  | case2 a hearing text => exact ⟨rfl, ha⟩
  | case3 a hearing listener next ih => exact ih ha
  | case4 a hearing key next ih =>
    apply ih
    intro hh
    obtain ⟨hs, hk⟩ := Bool.and_eq_true_iff.mp hh
    exact (Cache.get?_remove_of_ne (Ne.symm (by simpa using hk))).trans (ha hs)
  | case5 a hearing next ih => exact ih (fun hh => by simp at hh)
  | case6 a hearing record next ih =>
    apply ih
    intro hh
    obtain ⟨hs, hk⟩ := Bool.and_eq_true_iff.mp hh
    have hn : a.record.key ≠ record.key := Ne.symm (by simpa using hk)
    exact (Cache.get?_add a.cache record a.record.key).trans ((if_neg hn).trans (ha hs))
  | case7 a hearing key next answer cache hg ih =>
    have hc : a.cache.apply (.gate key) = cache := by simp [Cache.apply, hg]
    simp only [events, hg, Cache.replay_cons, hc]
    apply ih
    intro hh
    rw [← hc]
    exact (Cache.get?_shouldLookup a.cache key a.record.key).trans (ha hh)
  | case8 a hearing name next ih =>
    rw [events, Cache.replay_append, ← setRecord_cache ha name]
    exact ih (setRecord_holds a name)
  | case9 a hearing event next ih => exact ih ha

theorem tellAll_cache (thread : Option Thread) (listeners : List Listener) {a : Announcement}
    (ha : a.Holds) :
    (tellAll thread a listeners).1.cache = a.cache.replay (allEvents thread a listeners) := by
  induction listeners generalizing a with
  | nil => rfl
  | cons listener listeners ih =>
    obtain ⟨hc, hh⟩ := perform_cache (listener.react a.record thread) ha
      ⟨listener.name, a.record, thread, [], [], none⟩
    rw [allEvents, Cache.replay_append, ← hc]
    exact ih hh

/-- The announced record stays of the same container, whatever name it is given. -/
theorem perform_fullId (a : Announcement) (hearing : Hearing) (reaction : Reaction) :
    (a.perform hearing reaction).1.record.fullId = a.record.fullId := by
  fun_induction Announcement.perform a hearing reaction <;> simp_all [setRecord]

theorem perform_hearing (a : Announcement) (hearing : Hearing) (reaction : Reaction) :
    (a.perform hearing reaction).2.listener = hearing.listener ∧
      (a.perform hearing reaction).2.record = hearing.record ∧
      (a.perform hearing reaction).2.thread = hearing.thread := by
  fun_induction Announcement.perform a hearing reaction <;> simp_all

theorem tell_hearing (thread : Option Thread) (a : Announcement) (listener : Listener) :
    (a.tell thread listener).2.listener = listener.name ∧
      (a.tell thread listener).2.record = a.record ∧
      (a.tell thread listener).2.thread = thread :=
  perform_hearing a _ _

/-- Listeners that leave everything alone all find the same. -/
theorem tellAll_of_tell_eq {thread : Option Thread} {a : Announcement} {listeners : List Listener}
    (h : ∀ listener ∈ listeners, (a.tell thread listener).1 = a) :
    tellAll thread a listeners = (a, listeners.map fun listener => (a.tell thread listener).2) := by
  induction listeners with
  | nil => rfl
  | cons listener listeners ih =>
    have hrest := ih fun l hl => h l (List.mem_cons_of_mem listener hl)
    simp only [tellAll, h listener (by simp), hrest, List.map_cons]

theorem fullId_of_mem_tellAll {thread : Option Thread} {listeners : List Listener}
    {a : Announcement} {hearing : Hearing} (h : hearing ∈ (tellAll thread a listeners).2) :
    hearing.record.fullId = a.record.fullId := by
  induction listeners generalizing a with
  | nil => simp [tellAll] at h
  | cons listener listeners ih =>
    rcases List.mem_cons.mp h with rfl | h
    · exact congrArg ContainerRecord.fullId (tell_hearing thread a listener).2.1
    · exact (ih h).trans (perform_fullId a _ _)

end Announcement

/-- Whether the steps leave the cache and the record alone. -/
def Reaction.isPassive : Reaction → Bool
  | .done | .fail _ => true
  | .send _ next => next.isPassive
  | _ => false

/-- A passive listener only listens: it may fail and it may send events. -/
def Listener.Passive (listener : Listener) : Prop :=
  ∀ record thread, (listener.react record thread).isPassive = true

/-- A discreet listener leaves the cache as it is when a stored record is announced. It may ask the
gate for what it knows to be stored. -/
def Listener.Discreet (listener : Listener) : Prop :=
  ∀ cache record thread, cache.get? record.key = some record →
    (Announcement.tell thread ⟨cache, record, true⟩ listener).1 = ⟨cache, record, true⟩

theorem Listener.emitting_passive (hostname : String) : (Listener.emitting hostname).Passive := by
  intro record thread
  simp only [react, emitting]
  split <;> rfl

namespace Announcement

theorem events_of_isPassive {a : Announcement} {reaction : Reaction}
    (h : reaction.isPassive = true) : a.events reaction = [] := by
  fun_induction Announcement.events a reaction <;> simp_all [Reaction.isPassive]

theorem allEvents_of_passive {thread : Option Thread} {listeners : List Listener}
    (h : ∀ listener ∈ listeners, listener.Passive) (a : Announcement) :
    allEvents thread a listeners = [] := by
  induction listeners generalizing a with
  | nil => rfl
  | cons listener listeners ih =>
    rw [allEvents, events_of_isPassive (h listener (by simp) a.record thread), List.nil_append]
    exact ih (fun l hl => h l (List.mem_cons_of_mem listener hl)) _

theorem perform_of_isPassive {reaction : Reaction} (h : reaction.isPassive = true) (a : Announcement)
    (hearing : Hearing) : (a.perform hearing reaction).1 = a := by
  fun_induction Announcement.perform a hearing reaction <;> simp_all [Reaction.isPassive]

theorem tellAll_of_passive (thread : Option Thread) {listeners : List Listener}
    (h : ∀ listener ∈ listeners, listener.Passive) (a : Announcement) :
    (tellAll thread a listeners).1 = a ∧
      (tellAll thread a listeners).2.map (·.listener) = listeners.map (·.name) ∧
      ∀ hearing ∈ (tellAll thread a listeners).2,
        hearing.record = a.record ∧ hearing.thread = thread := by
  rw [tellAll_of_tell_eq fun listener hl => perform_of_isPassive (h listener hl a.record thread) a _]
  refine ⟨rfl, ?_, ?_⟩
  · rw [List.map_map]
    exact List.map_congr_left fun listener _ => (tell_hearing thread a listener).1
  · intro hearing hm
    obtain ⟨listener, _, rfl⟩ := List.mem_map.mp hm
    exact (tell_hearing thread a listener).2

end Announcement

theorem Listener.Passive.discreet {listener : Listener} (h : listener.Passive) : listener.Discreet :=
  fun _ record thread _ => Announcement.perform_of_isPassive (h record thread) _ _

/-- What is announced is stored, so that the gate has nothing to reserve. -/
theorem Listener.asking_discreet (name : String) : (Listener.asking name).Discreet := by
  intro cache record thread hs
  have hg : cache.shouldLookup record.key = (false, cache) := by simp [Cache.shouldLookup, hs]
  simp only [Announcement.tell, asking, react, Announcement.perform, hg]

namespace Cache

/-- The events of what listeners do when a record is announced. -/
def heardEvents (cache : Cache) (record : ContainerRecord) (held : Bool) (thread : Option Thread) :
    List CacheEvent :=
  Announcement.allEvents thread ⟨cache, record, held⟩ cache.listeners

theorem announce_cache {cache : Cache} {record : ContainerRecord} {held : Bool}
    (h : held = true → cache.get? record.key = some record) (thread : Option Thread) :
    (cache.announce record held thread).1 = cache.replay (cache.heardEvents record held thread) :=
  Announcement.tellAll_cache thread cache.listeners h

theorem heardEvents_of_passive {cache : Cache} (h : ∀ listener ∈ cache.listeners, listener.Passive)
    (record : ContainerRecord) (held : Bool) (thread : Option Thread) :
    cache.heardEvents record held thread = [] :=
  Announcement.allEvents_of_passive h _

/-- Discreet listeners hear of a stored record one after the other, each as if it were the only one. -/
theorem announce_of_discreet {cache : Cache} {record : ContainerRecord}
    (hd : ∀ listener ∈ cache.listeners, listener.Discreet) (hs : cache.get? record.key = some record)
    (thread : Option Thread) :
    cache.announce record true thread = (cache, cache.listeners.map fun listener =>
      (Announcement.tell thread ⟨cache, record, true⟩ listener).2) := by
  rw [announce, Announcement.tellAll_of_tell_eq fun listener hl => hd listener hl _ _ thread hs]

theorem fullId_of_mem_announce {cache : Cache} {record : ContainerRecord} {held : Bool}
    {thread : Option Thread} {hearing : Hearing}
    (h : hearing ∈ (cache.announce record held thread).2) :
    hearing.record.fullId = record.fullId :=
  Announcement.fullId_of_mem_tellAll h

end Cache
end Attribution
