import Attribution.Proofs.Cache.Call
import Mathlib.Data.List.Forall2

namespace Attribution

namespace Reaction

/-- The steps leave the name of the record alone, whatever the gate answers. -/
def KeepsName : Reaction → Prop
  | .done | .fail _ => True
  | .subscribe _ next | .remove _ next | .reset next | .add _ next | .send _ next => next.KeepsName
  | .gate _ next => ∀ answer, (next answer).KeepsName
  | .rename _ _ => False

/-- What the steps ask of the cache when the gate gives these answers. -/
def calls : Reaction → List Bool → List CacheEvent
  | .done, _ | .fail _, _ => []
  | .subscribe listener next, answers => .subscribe listener :: next.calls answers
  | .remove key next, answers => .remove key :: next.calls answers
  | .reset next, answers => .reset :: next.calls answers
  | .add record next, answers => .add record :: next.calls answers
  | .gate key next, answers => .gate key :: (next (answers.headD false)).calls answers.tail
  | .rename _ next, answers | .send _ next, answers => next.calls answers

/-- The failure that the steps end in when the gate gives these answers. -/
def failure : Reaction → List Bool → Option String
  | .done, _ => none
  | .fail text, _ => some text
  | .gate _ next, answers => (next (answers.headD false)).failure answers.tail
  | .subscribe _ next, answers | .remove _ next, answers | .reset next, answers
  | .add _ next, answers | .rename _ next, answers | .send _ next, answers => next.failure answers

end Reaction

/-- A listener that leaves the name of the announced record alone. It may fail, send events and use
the cache in any way. -/
def Listener.KeepsName (listener : Listener) : Prop :=
  ∀ record thread, (listener.react record thread).KeepsName

/-- The listeners that are registered behind an event. -/
def CacheEvent.register (listeners : List Listener) : CacheEvent → List Listener
  | .subscribe listener => listeners ++ [listener]
  | .reset => []
  | _ => listeners

/-- The answer that the gate gives to an event. -/
def Cache.answer? (cache : Cache) : CacheEvent → Option Bool
  | .gate key => some (cache.shouldLookup key).1
  | _ => none

/-- The answers that the gate gives in the course of events. -/
def Cache.answers (cache : Cache) : List CacheEvent → List Bool
  | [] => []
  | event :: events => (cache.answer? event).toList ++ answers (cache.apply event) events

/-- `Hears record thread listener hearing`: the listener was called with the record and the thread,
and it failed or not as its steps say. -/
structure Hears (record : ContainerRecord) (thread : Option Thread) (listener : Listener)
    (hearing : Hearing) : Prop where
  name : hearing.listener = listener.name
  given : hearing.record = record ∧ hearing.thread = thread
  failure : hearing.failure = (listener.react record thread).failure hearing.gates

/-- The line is the warning that the listener failed. -/
structure Warns (record : ContainerRecord) (hearing : Hearing) (line : LogLine) : Prop where
  level : line.level = Log.warningLevel
  component : line.component = "cache"
  text : ∃ failure, hearing.failure = some failure ∧
    line.text = "New container listener " ++ hearing.listener.shown ++ " failed for " ++ record.id ++
      ": " ++ failure

/-- What listeners asked of the cache, one after the other. -/
def callsOf (record : ContainerRecord) (thread : Option Thread) (listeners : List Listener)
    (hearings : List Hearing) : List CacheEvent :=
  (List.zipWith (fun listener hearing => (listener.react record thread).calls hearing.gates)
    listeners hearings).flatten

/-- `Announced cache record thread after hearings`: the announcement of the record reaches all who
listen to the cache, and leaves the cache `after`. -/
structure Announced (cache : Cache) (record : ContainerRecord) (thread : Option Thread)
    (after : Cache) (hearings : List Hearing) : Prop where
  /-- Those registered at the beginning are called, each once and in their order. -/
  called : List.Forall₂ (Hears record thread) cache.listeners hearings
  /-- One warning is logged for each of them that failed. -/
  warned : List.Forall₂ (Warns record) (hearings.filter (·.failure.isSome)) (warnings hearings)
  /-- The cache changes by what they ask of it. -/
  changed : after = cache.replay (callsOf record thread cache.listeners hearings)
  answered : hearings.flatMap (·.gates) =
    cache.answers (callsOf record thread cache.listeners hearings)
  /-- What none of them asks about stays as it was. -/
  untouched : ∀ key,
    (∀ call ∈ callsOf record thread cache.listeners hearings, call.concerns key = false) →
      after.get? key = cache.get? key ∧ after.isPending key = cache.isPending key
  /-- Whom they register or dismiss makes a difference to the next announcement. -/
  registered : after.listeners =
    (callsOf record thread cache.listeners hearings).foldl CacheEvent.register cache.listeners
  next : ∀ record' own thread', (after.perform (.notify record' own thread')).2.map (·.listener) =
    after.listeners.map Listener.name

namespace Cache

theorem answers_append (cache : Cache) (events later : List CacheEvent) :
    cache.answers (events ++ later) = cache.answers events ++ (cache.replay events).answers later := by
  induction events generalizing cache with
  | nil => rfl
  | cons event events ih => simp [answers, ih]

theorem listeners_apply (cache : Cache) (event : CacheEvent) :
    (cache.apply event).listeners = event.register cache.listeners := by
  cases event with
  | gate key =>
    simp only [apply, shouldLookup]
    split <;> rfl
  | rename key name =>
    simp only [apply, rename]
    split <;> rfl
  | _ => rfl

theorem listeners_replay (cache : Cache) (events : List CacheEvent) :
    (cache.replay events).listeners = events.foldl CacheEvent.register cache.listeners := by
  induction events generalizing cache with
  | nil => rfl
  | cons event events ih => rw [replay_cons, ih, listeners_apply, List.foldl_cons]

end Cache

namespace Announcement

/-- The steps of a listener, told from what they ask and what they are answered. -/
theorem perform_calls {reaction : Reaction} (h : reaction.KeepsName) (a : Announcement)
    {hearing : Hearing} (hf : hearing.failure = none) :
    ∃ answers, (a.perform hearing reaction).2.gates = hearing.gates ++ answers ∧
      (a.perform hearing reaction).2.failure = reaction.failure answers ∧
      (a.perform hearing reaction).1.record = a.record ∧
      (a.perform hearing reaction).1.cache = a.cache.replay (reaction.calls answers) ∧
      answers = a.cache.answers (reaction.calls answers) := by
  fun_induction Announcement.perform a hearing reaction with
  | case1 a hearing => exact ⟨[], by simp, hf, rfl, rfl, rfl⟩
  | case2 a hearing text => exact ⟨[], by simp, rfl, rfl, rfl, rfl⟩
  | case3 a hearing listener next ih => exact ih h hf
  | case4 a hearing key next ih => exact ih h hf
  | case5 a hearing next ih => exact ih h hf
  | case6 a hearing record next ih => exact ih h hf
  | case7 a hearing key next answer cache hg ih =>
    obtain ⟨answers, hgates, hfailure, hrecord, hcache, hanswers⟩ := ih (h answer) hf
    have ha : (a.cache.shouldLookup key).1 = answer := congrArg Prod.fst hg
    have hc : a.cache.apply (.gate key) = cache := congrArg Prod.snd hg
    refine ⟨answer :: answers, by simp [hgates], hfailure, hrecord, ?_, ?_⟩
    · rw [hcache, Reaction.calls, Cache.replay_cons, hc]
      rfl
    · rw [Reaction.calls, Cache.answers, hc, Cache.answer?, ha]
      exact congrArg (answer :: ·) hanswers
  | case8 a hearing name next ih => exact h.elim
  | case9 a hearing event next ih => exact ih h hf

theorem tellAll_calls {listeners : List Listener} (h : ∀ listener ∈ listeners, listener.KeepsName)
    (thread : Option Thread) (a : Announcement) :
    List.Forall₂ (Hears a.record thread) listeners (tellAll thread a listeners).2 ∧
      (tellAll thread a listeners).1.cache =
        a.cache.replay (callsOf a.record thread listeners (tellAll thread a listeners).2) ∧
      (tellAll thread a listeners).2.flatMap (·.gates) =
        a.cache.answers (callsOf a.record thread listeners (tellAll thread a listeners).2) := by
  induction listeners generalizing a with
  | nil => exact ⟨.nil, rfl, rfl⟩
  | cons listener listeners ih =>
    obtain ⟨answers, hgates, hfailure, hrecord, hcache, hanswers⟩ :=
      perform_calls (h listener (by simp) a.record thread) a
        (rfl : (Hearing.mk listener.name a.record thread [] [] none).failure = none)
    rw [List.nil_append] at hgates
    obtain ⟨hname, hheard, hthread⟩ := tell_hearing thread a listener
    -- What is announced is still the same when the others are called.
    have hsame : (a.tell thread listener).1.record = a.record := hrecord
    obtain ⟨hcalled, hchanged, hanswered⟩ :=
      ih (fun l hl => h l (List.mem_cons_of_mem listener hl)) (a.tell thread listener).1
    rw [hsame] at hcalled hchanged hanswered
    have hcalls : callsOf a.record thread (listener :: listeners)
        (tellAll thread a (listener :: listeners)).2 =
          (listener.react a.record thread).calls answers ++
            callsOf a.record thread listeners
              (tellAll thread (a.tell thread listener).1 listeners).2 := by
      rw [← hgates]
      rfl
    rw [← hgates] at hfailure
    refine ⟨.cons ⟨hname, ⟨hheard, hthread⟩, hfailure⟩ hcalled, ?_, ?_⟩
    · rw [hcalls, Cache.replay_append, ← hcache]
      exact hchanged
    · rw [hcalls, Cache.answers_append, ← hcache, ← hanswers, ← hgates]
      exact congrArg (_ ++ ·) hanswered

/-- Whatever the listeners do, each of them is called. -/
theorem listeners_tellAll (thread : Option Thread) (a : Announcement) (listeners : List Listener) :
    (tellAll thread a listeners).2.map (·.listener) = listeners.map Listener.name := by
  induction listeners generalizing a with
  | nil => rfl
  | cons listener listeners ih =>
    have hname := (tell_hearing thread a listener).1
    simp only [tellAll, List.map_cons, ih, hname]

end Announcement

/-- Those that failed are logged, and nobody else. -/
theorem warns_warnings {record : ContainerRecord} {thread : Option Thread}
    {listeners : List Listener} {hearings : List Hearing}
    (h : List.Forall₂ (Hears record thread) listeners hearings) :
    List.Forall₂ (Warns record) (hearings.filter (·.failure.isSome)) (warnings hearings) := by
  induction h with
  | nil => exact .nil
  | @cons listener hearing listeners hearings hears _ ih =>
    cases hf : hearing.failure with
    | none => simpa [warnings, Hearing.warning?, hf] using ih
    | some text =>
      have hwarns : Warns record hearing (Log.warning "cache" ("New container listener " ++
          hearing.listener.shown ++ " failed for " ++ hearing.record.id ++ ": " ++ text)) :=
        ⟨rfl, rfl, text, hf, by rw [hears.given.1]; rfl⟩
      simpa [warnings, Hearing.warning?, hf] using ⟨hwarns, ih⟩

namespace Cache

/-- Announcing a record ends well whatever its listeners do, and each of them hears of it. -/
theorem announced_notify {cache : Cache}
    (h : ∀ listener ∈ cache.listeners, listener.KeepsName) (record : ContainerRecord) (own : Bool)
    (thread : Option Thread) :
    Announced cache record thread (cache.perform (.notify record own thread)).1
      (cache.perform (.notify record own thread)).2 := by
  obtain ⟨hcalled, hchanged, hanswered⟩ :=
    Announcement.tellAll_calls h thread ⟨cache, record, cache.holds record own⟩
  have hafter : (cache.perform (.notify record own thread)).1 = cache.replay
      (callsOf record thread cache.listeners (cache.perform (.notify record own thread)).2) :=
    hchanged
  refine ⟨hcalled, warns_warnings hcalled, hafter, hanswered, ?_, ?_, ?_⟩
  · intro key hk
    rw [hafter]
    exact ⟨get?_replay_of_not_concerns hk, isPending_replay_of_not_concerns hk⟩
  · rw [← listeners_replay, ← hafter]
  · intro record' own' thread'
    exact Announcement.listeners_tellAll thread' _ _

end Cache

namespace Meddlers

def record : ContainerRecord := { id := "0123456789ab", fullId := "0123456789abcdef" }

def adding : Listener := .mk (.named "a") fun record _ => .add { record with id := "other" } .done

/-- Fails if the gate opens for what it hears of. -/
def doubting : Listener :=
  .mk (.named "d") fun record _ => .gate record.key fun answer =>
    if answer then .fail "unknown" else .done

def cache : Cache :=
  { ({} : Cache).add record with
    listeners := [.resetting "r", adding, doubting, .subscribing "s", .failing "f"] }

/-- The first one dismisses all the others, who are called all the same. -/
theorem announced_to_dismissed :
    (∀ listener ∈ cache.listeners, listener.KeepsName) ∧
      Announced cache record none (cache.perform (.notify record true none)).1
        (cache.perform (.notify record true none)).2 ∧
      (cache.perform (.notify record true none)).2.map (·.listener) =
        [.named "r", .named "a", .named "d", .named "s", .named "f"] ∧
      (warnings (cache.perform (.notify record true none)).2).length = 2 ∧
      (cache.perform (.notify record true none)).1.listeners.map (·.name) = [.named "s+"] ∧
      (cache.perform (.notify record true none)).1.pending = [record.key] := by
  have hkeep : ∀ listener ∈ cache.listeners, listener.KeepsName := by
    have hdoubting : doubting.KeepsName := by
      intro record thread answer
      cases answer
      all_goals trivial
    simp only [cache, List.forall_mem_cons]
    exact ⟨fun _ _ => trivial, fun _ _ => trivial, hdoubting, fun _ _ => trivial,
      fun _ _ => trivial, by simp⟩
  exact ⟨hkeep, Cache.announced_notify hkeep record true none, by decide +kernel, by decide +kernel,
    by decide +kernel, by decide +kernel⟩

end Meddlers
end Attribution
