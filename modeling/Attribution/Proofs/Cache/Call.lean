import Attribution.Proofs.Cache.Announcement

namespace Attribution

/-- A call on a cache. -/
inductive CacheCall where
  | shouldLookup (key : ContainerKey)
  | get (key : ContainerKey)
  | add (record : ContainerRecord)
  | remove (key : ContainerKey)
  | reset
  | subscribe (listener : Listener)
  /-- Announces a record; `own` says whether it is meant to be the very one that is stored. -/
  | notify (record : ContainerRecord) (own : Bool) (thread : Option Thread)

namespace Cache

/-- Whether a record that is announced as the stored one is stored. -/
def holds (cache : Cache) (record : ContainerRecord) (own : Bool) : Bool :=
  own && decide (cache.get? record.key = some record)

/-- The cache behind a call, and how the listeners heard it. -/
def perform (cache : Cache) : CacheCall → Cache × List Hearing
  | .shouldLookup key => ((cache.shouldLookup key).2, [])
  | .get _ => (cache, [])
  | .add record => (cache.add record, [])
  | .remove key => (cache.remove key, [])
  | .reset => (cache.reset, [])
  | .subscribe listener => (cache.subscribe listener, [])
  | .notify record own thread => cache.announce record (cache.holds record own) thread

def run (cache : Cache) : List CacheCall → Cache
  | [] => cache
  | call :: calls => run (cache.perform call).1 calls

/-- How the listeners heard a run. -/
def heard (cache : Cache) : List CacheCall → List Hearing
  | [] => []
  | call :: calls => (cache.perform call).2 ++ heard (cache.perform call).1 calls

/-- The events of a call. -/
def eventsOf (cache : Cache) : CacheCall → List CacheEvent
  | .shouldLookup key => [.gate key]
  | .get key => [.get key]
  | .add record => [.add record]
  | .remove key => [.remove key]
  | .reset => [.reset]
  | .subscribe listener => [.subscribe listener]
  | .notify record own thread =>
    .announce record :: cache.heardEvents record (cache.holds record own) thread

/-- The events of a run, those of the listeners among them. -/
def history (cache : Cache) : List CacheCall → List CacheEvent
  | [] => []
  | call :: calls => cache.eventsOf call ++ history (cache.perform call).1 calls

theorem perform_eq_replay (cache : Cache) (call : CacheCall) :
    (cache.perform call).1 = cache.replay (cache.eventsOf call) := by
  cases call with
  | notify record own thread =>
    apply announce_cache
    intro hh
    simpa using (Bool.and_eq_true_iff.mp hh).2
  | _ => rfl

theorem eventsOf_notify_of_passive {cache : Cache}
    (h : ∀ listener ∈ cache.listeners, listener.Passive) (record : ContainerRecord) (own : Bool)
    (thread : Option Thread) :
    cache.eventsOf (.notify record own thread) = [.announce record] := by
  rw [eventsOf, heardEvents_of_passive h]

theorem perform_notify_of_passive {cache : Cache}
    (h : ∀ listener ∈ cache.listeners, listener.Passive) (record : ContainerRecord) (own : Bool)
    (thread : Option Thread) : (cache.perform (.notify record own thread)).1 = cache := by
  rw [perform_eq_replay, eventsOf_notify_of_passive h]
  rfl

theorem run_eq_replay (cache : Cache) (calls : List CacheCall) :
    cache.run calls = cache.replay (cache.history calls) := by
  induction calls generalizing cache with
  | nil => rfl
  | cons call calls ih =>
    rw [history, replay_append, ← perform_eq_replay]
    exact ih (cache.perform call).1

theorem run_append (cache : Cache) (calls later : List CacheCall) :
    cache.run (calls ++ later) = (cache.run calls).run later := by
  induction calls generalizing cache with
  | nil => rfl
  | cons call calls ih => exact ih (cache.perform call).1

theorem heard_append (cache : Cache) (calls later : List CacheCall) :
    cache.heard (calls ++ later) = cache.heard calls ++ (cache.run calls).heard later := by
  induction calls generalizing cache with
  | nil => rfl
  | cons call calls ih => simp [heard, run, ih]

/-- Whether a call frees a key, be it that a listener does. -/
def FreesBy (cache : Cache) (call : CacheCall) (key : ContainerKey) : Prop :=
  ∃ event ∈ cache.eventsOf call, event.frees key = true

theorem freesBy_of_eventsOf {cache : Cache} {call : CacheCall} {event : CacheEvent}
    {key : ContainerKey} (h : cache.eventsOf call = [event]) :
    cache.FreesBy call key ↔ event.frees key = true := by
  simp [FreesBy, h]

theorem knows_perform {cache : Cache} {call : CacheCall} {key : ContainerKey}
    (hk : cache.knows key = true) (h : ¬cache.FreesBy call key) :
    (cache.perform call).1.knows key = true := by
  rw [perform_eq_replay]
  apply knows_replay_of_not_frees hk
  intro event he
  by_contra hf
  exact h ⟨event, he, by simpa using hf⟩

/-- The cache before the call that stands at a place of a run. -/
def atCall (cache : Cache) (calls : List CacheCall) (n : Nat) : Cache := cache.run (calls.take n)

theorem atCall_succ {cache : Cache} {calls : List CacheCall} {n : Nat} {call : CacheCall}
    (h : calls[n]? = some call) :
    cache.atCall calls (n + 1) = ((cache.atCall calls n).perform call).1 := by
  rw [atCall, List.take_add_one, h, run_append]
  rfl

/-- A key that is known at one place of a run and not at a later one is freed in between. -/
theorem exists_freesBy {cache : Cache} {calls : List CacheCall} {key : ContainerKey} {m n : Nat}
    (hmn : m ≤ n) (hn : n ≤ calls.length) (hm : (cache.atCall calls m).knows key = true)
    (hk : (cache.atCall calls n).knows key = false) :
    ∃ l call, m ≤ l ∧ l < n ∧ calls[l]? = some call ∧ (cache.atCall calls l).FreesBy call key := by
  induction n, hmn using Nat.le_induction with
  | base => simp [hm] at hk
  | succ n hmn ih =>
    obtain ⟨call, hc⟩ : ∃ call, calls[n]? = some call := ⟨_, List.getElem?_eq_getElem (by omega)⟩
    by_cases hf : (cache.atCall calls n).FreesBy call key
    · exact ⟨n, call, hmn, by omega, hc, hf⟩
    · have hs : (cache.atCall calls n).knows key = false := by
        by_contra ht
        rw [atCall_succ hc, knows_perform (by simpa using ht) hf] at hk
        simp at hk
      obtain ⟨l, other, hl, hb, hr⟩ := ih (by omega) hs
      exact ⟨l, other, hl, by omega, hr⟩

end Cache
end Attribution
