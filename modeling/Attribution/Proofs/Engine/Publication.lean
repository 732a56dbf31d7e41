import Attribution.Proofs.Engine.Offer

namespace Attribution

/-- All that an attempt to attribute a thread depends on, the cache apart. -/
structure Attempt where
  engine : Engine
  service : RuntimeService
  limits : LimitsSource
  network : Network
  thread : Thread

namespace Attempt

def resolve (attempt : Attempt) (cache : Cache) : Resolution :=
  attempt.engine.resolve attempt.service attempt.limits attempt.network cache attempt.thread

/-- The calls of an attempt on the cache. -/
def calls (attempt : Attempt) (cache : Cache) : List CacheCall :=
  match attempt.engine.offer? attempt.service attempt.limits attempt.network attempt.thread with
  | none => []
  | some (record, thread) => Engine.publication cache record thread

/-- An attempt does to the cache what its calls do, and is heard as they are. -/
theorem resolve_eq_calls (attempt : Attempt) (cache : Cache) :
    (attempt.resolve cache).cache = cache.run (attempt.calls cache) ∧
      (attempt.resolve cache).hearings = cache.heard (attempt.calls cache) := by
  unfold calls
  split
  next hn => exact (Engine.resolve_of_offer?_none hn).2
  next record owner ho =>
    obtain ⟨_, hc, hh⟩ := Engine.resolve_of_offer? ho cache
    obtain ⟨hpc, hph⟩ := Engine.publish_eq_publication cache record owner
    exact ⟨hc.trans hpc, hh.trans hph⟩

end Attempt

/-- What happens next to a shared cache: an engine's attempt, or a call of somebody else. -/
inductive Turn where
  | resolve (attempt : Attempt)
  | other (call : CacheCall)

inductive Caller where
  | engine
  | other
  deriving DecidableEq, Repr

abbrev CallTrace := List (Caller × CacheCall)

namespace CallTrace

def calls (made : CallTrace) : List CacheCall := made.map (·.2)

end CallTrace

namespace Turn

def perform (cache : Cache) : Turn → Cache × List Hearing
  | .resolve attempt => ((attempt.resolve cache).cache, (attempt.resolve cache).hearings)
  | .other call => cache.perform call

/-- The cache behind turns, and how its listeners heard them. -/
def performAll (cache : Cache) : List Turn → Cache × List Hearing
  | [] => (cache, [])
  | turn :: turns =>
    let behind := turn.perform cache
    let rest := performAll behind.1 turns
    (rest.1, behind.2 ++ rest.2)

def calls (cache : Cache) : Turn → CallTrace
  | .resolve attempt => (attempt.calls cache).map fun call => (.engine, call)
  | .other call => [(.other, call)]

/-- The calls of turns, one behind the other. -/
def trace (cache : Cache) : List Turn → CallTrace
  | [] => []
  | turn :: turns => turn.calls cache ++ trace (turn.perform cache).1 turns

theorem perform_eq_calls (cache : Cache) (turn : Turn) :
    turn.perform cache =
      (cache.run (turn.calls cache).calls, cache.heard (turn.calls cache).calls) := by
  cases turn with
  | resolve attempt =>
    obtain ⟨hc, hh⟩ := attempt.resolve_eq_calls cache
    simp [perform, calls, CallTrace.calls, hc, hh]
  | other call => simp [perform, calls, CallTrace.calls, Cache.run, Cache.heard]

theorem performAll_eq_trace (cache : Cache) (turns : List Turn) :
    performAll cache turns =
      (cache.run (trace cache turns).calls, cache.heard (trace cache turns).calls) := by
  induction turns generalizing cache with
  | nil => rfl
  | cons turn turns ih =>
    have ht : (trace cache (turn :: turns)).calls =
        (turn.calls cache).calls ++ (trace (turn.perform cache).1 turns).calls := List.map_append
    have hp : (turn.perform cache).1 = cache.run (turn.calls cache).calls := by
      rw [perform_eq_calls]
    have hh : (turn.perform cache).2 = cache.heard (turn.calls cache).calls := by
      rw [perform_eq_calls]
    simp only [performAll, ht, Cache.run_append, Cache.heard_append, ih, ← hp, hh]

end Turn

/-- The gate admits an engine at a place of the trace. -/
def AdmittedAt (cache : Cache) (made : CallTrace) (n : Nat) (key : ContainerKey) : Prop :=
  made[n]? = some (.engine, .shouldLookup key) ∧
    ((cache.atCall made.calls n).shouldLookup key).1 = true

structure Published (record : ContainerRecord) : Prop where
  type : record.type = .containerd
  name : record.name = record.id
  lookupState : record.lookupState = .successful

/-- The calls of engines: what they store was admitted right before, and what they announce was stored
right before. -/
inductive EngineCall (cache : Cache) (made : CallTrace) : Nat → CacheCall → Prop
  | gate (n : Nat) (key : ContainerKey) : EngineCall cache made n (.shouldLookup key)
  | add (n : Nat) {record : ContainerRecord} :
    Published record → AdmittedAt cache made n record.key →
      EngineCall cache made (n + 1) (.add record)
  | notify (n : Nat) {record : ContainerRecord} (own : Bool) (thread : Option Thread) :
    Published record → AdmittedAt cache made n record.key →
      made[n + 1]? = some (.engine, .add record) →
      EngineCall cache made (n + 2) (.notify record own thread)

theorem AdmittedAt.append {cache : Cache} {before made : CallTrace} {n : Nat} {key : ContainerKey}
    (h : AdmittedAt (cache.run before.calls) made n key) :
    AdmittedAt cache (before ++ made) (before.length + n) key := by
  obtain ⟨ht, hg⟩ := h
  have hc : cache.atCall (before ++ made : CallTrace).calls (before.length + n) =
      (cache.run before.calls).atCall made.calls n := by
    have hl : before.length = before.calls.length := (List.length_map _).symm
    have hs : (before ++ made : CallTrace).calls = before.calls ++ made.calls := List.map_append
    rw [hs, hl, Cache.atCall, List.take_length_add_append, Cache.run_append]
    rfl
  refine ⟨?_, by rw [hc]; exact hg⟩
  rw [List.getElem?_append_right (by omega)]
  simpa using ht

theorem EngineCall.append {cache : Cache} {before made : CallTrace} {n : Nat} {call : CacheCall}
    (h : EngineCall (cache.run before.calls) made n call) :
    EngineCall cache (before ++ made) (before.length + n) call := by
  cases h with
  | gate key => exact .gate _ _
  | add k hp ha => exact .add (before.length + k) hp ha.append
  | notify k own thread hp ha hs =>
    refine .notify (before.length + k) own thread hp ha.append ?_
    rw [List.getElem?_append_right (by omega)]
    simpa [Nat.add_assoc] using hs

theorem AdmittedAt.extend {cache : Cache} {made : CallTrace} {n : Nat} {key : ContainerKey}
    (h : AdmittedAt cache made n key) (later : CallTrace) :
    AdmittedAt cache (made ++ later) n key := by
  obtain ⟨ht, hg⟩ := h
  have hn : n < made.length := (List.getElem?_eq_some_iff.mp ht).1
  have hc : cache.atCall (made ++ later : CallTrace).calls n = cache.atCall made.calls n := by
    have hs : (made ++ later : CallTrace).calls = made.calls ++ later.calls := List.map_append
    have hl : n ≤ made.calls.length := by simpa [CallTrace.calls] using hn.le
    rw [hs, Cache.atCall, List.take_append_of_le_length hl]
    rfl
  exact ⟨by rwa [List.getElem?_append_left hn], by rwa [hc]⟩

theorem EngineCall.extend {cache : Cache} {made : CallTrace} {n : Nat} {call : CacheCall}
    (h : EngineCall cache made n call) (later : CallTrace) :
    EngineCall cache (made ++ later) n call := by
  cases h with
  | gate key => exact .gate _ _
  | add k hp ha => exact .add k hp (ha.extend later)
  | notify k own thread hp ha hs =>
    refine .notify k own thread hp (ha.extend later) ?_
    rwa [List.getElem?_append_left (List.getElem?_eq_some_iff.mp hs).1]

theorem published_asPublished {record : ContainerRecord} (h : record.type = .containerd) :
    Published (Engine.asPublished record) := ⟨h, rfl, rfl⟩

theorem engineCall_publication {cache : Cache} {record : ContainerRecord} {owner : Thread}
    (ht : record.type = .containerd) {n : Nat} {call : CacheCall}
    (h : (Engine.publication cache record owner)[n]? = some call) :
    EngineCall cache ((Engine.publication cache record owner).map fun c => (.engine, c)) n call := by
  have hp := published_asPublished ht
  have hk : (Engine.asPublished record).key = (record.id, .containerd) := by
    rw [← ht]
    rfl
  unfold Engine.publication at h ⊢
  split at h
  next hg =>
    simp only [hg, if_true, List.map_cons, List.map_nil]
    have ha (later : CallTrace) : AdmittedAt cache
        ((.engine, .shouldLookup (record.id, .containerd)) :: later) 0
        (Engine.asPublished record).key := by
      rw [hk]
      exact ⟨rfl, hg⟩
    match n with
    | 0 =>
      cases h
      exact .gate 0 _
    | 1 =>
      cases h
      exact .add 0 hp (ha _)
    | 2 =>
      cases h
      exact .notify 0 true _ hp (ha _) rfl
    | n + 3 => simp at h
  next hg =>
    match n with
    | 0 =>
      cases h
      exact .gate 0 _
    | n + 1 => simp at h

theorem engineCall_turn {cache : Cache} {turn : Turn} {n : Nat} {call : CacheCall}
    (h : (turn.calls cache)[n]? = some (.engine, call)) :
    EngineCall cache (turn.calls cache) n call := by
  cases turn with
  | other c =>
    have hm := List.mem_of_getElem? h
    simp [Turn.calls] at hm
  | resolve attempt =>
    have hc : (attempt.calls cache)[n]? = some call := by simpa [Turn.calls] using h
    simp only [Turn.calls]
    unfold Attempt.calls at hc ⊢
    split at hc
    next => simp at hc
    next record owner ho => exact engineCall_publication (Engine.type_of_offer? ho) hc

/-- Every call of an engine in a trace is one that it may make. -/
theorem engineCall_trace {turns : List Turn} {cache : Cache} {n : Nat} {call : CacheCall}
    (h : (Turn.trace cache turns)[n]? = some (.engine, call)) :
    EngineCall cache (Turn.trace cache turns) n call := by
  induction turns generalizing cache n with
  | nil => simp [Turn.trace] at h
  | cons turn turns ih =>
    have hp : (turn.perform cache).1 = cache.run (turn.calls cache).calls := by
      rw [Turn.perform_eq_calls]
    rw [Turn.trace] at h ⊢
    by_cases hn : n < (turn.calls cache).length
    · rw [List.getElem?_append_left hn] at h
      exact (engineCall_turn h).extend _
    · rw [List.getElem?_append_right (by omega)] at h
      have hc := ih h
      rw [hp] at hc ⊢
      have hs := hc.append
      rwa [Nat.add_sub_cancel' (by omega)] at hs

/-- How engines keep to a cache that they share, as a trace of calls shows it. -/
structure Orderly (cache : Cache) (made : CallTrace) : Prop where
  /-- Between two announcements of a key some call makes the cache forget it. It may be the first
  announcement itself, if a listener does so. -/
  once : ∀ m n first second own own' thread thread', m < n →
    made[m]? = some (.engine, .notify first own thread) →
    made[n]? = some (.engine, .notify second own' thread') → first.key = second.key →
    ∃ l caller call, m ≤ l ∧ l < n ∧ made[l]? = some (caller, call) ∧
      (cache.atCall made.calls l).FreesBy call first.key
  /-- When an announcement begins, the announced record is the stored one. -/
  stored : ∀ n record own thread, made[n]? = some (.engine, .notify record own thread) →
    (cache.atCall made.calls n).get? (record.id, .containerd) = some record ∧
      record.name = record.id ∧ record.lookupState = .successful
  /-- A call leaves a stored record where it is, unless listeners do something about its key. -/
  kept : ∀ n call key record, made[n]? = some (.engine, call) →
    (cache.atCall made.calls n).get? key = some record →
    (cache.atCall made.calls (n + 1)).get? key = some record ∨
      ∃ announced own thread, call = .notify announced own thread ∧
        ∃ event ∈ (cache.atCall made.calls n).eventsOf call, event.concerns key = true

section

variable {cache : Cache} {made : CallTrace} {n : Nat} {record : ContainerRecord} {key : ContainerKey}

theorem getElem?_calls {caller : Caller} {call : CacheCall} (h : made[n]? = some (caller, call)) :
    made.calls[n]? = some call := by simp [CallTrace.calls, h]

theorem exists_caller {call : CacheCall} (h : made.calls[n]? = some call) :
    ∃ caller, made[n]? = some (caller, call) := by
  rw [CallTrace.calls, List.getElem?_map] at h
  obtain ⟨⟨caller, c⟩, hm, rfl⟩ := Option.map_eq_some_iff.mp h
  exact ⟨caller, hm⟩

theorem get?_of_added (cache : Cache) (h : made[n]? = some (.engine, .add record)) :
    (cache.atCall made.calls (n + 1)).get? record.key = some record := by
  rw [Cache.atCall_succ (getElem?_calls h)]
  exact (Cache.get?_add _ record record.key).trans (if_pos rfl)

theorem knows_of_admittedAt (h : AdmittedAt cache made n key) :
    (cache.atCall made.calls n).knows key = false := by
  simpa [Cache.shouldLookup_fst] using h.2

theorem get?_of_admittedAt (h : AdmittedAt cache made n key) :
    (cache.atCall made.calls (n + 1)).get? key = none := by
  have hk := knows_of_admittedAt h
  rw [Cache.atCall_succ (getElem?_calls h.1)]
  refine (Cache.get?_shouldLookup _ key key).trans ?_
  simpa using (Bool.or_eq_false_iff.mp hk).1

theorem announcements_apart {first second : ContainerRecord} {own own' : Bool}
    {thread thread' : Option Thread} {m : Nat}
    (hm : EngineCall cache made m (.notify first own thread))
    (hn : EngineCall cache made n (.notify second own' thread')) (hmn : m < n)
    (ht : made[m]? = some (.engine, .notify first own thread)) (hk : first.key = second.key) :
    ∃ l caller call, m ≤ l ∧ l < n ∧ made[l]? = some (caller, call) ∧
      (cache.atCall made.calls l).FreesBy call first.key := by
  cases hm with
  | notify i _ _ _ _ hi =>
  cases hn with
  | notify j _ _ _ hj hs =>
    have hg := get?_of_added cache hi
    have hstored : (cache.atCall made.calls (i + 2)).knows first.key = true := by
      simp [Cache.knows, hg]
    have hfresh : (cache.atCall made.calls j).knows first.key = false := by
      rw [hk]
      exact knows_of_admittedAt hj
    -- The first announcement is none of the calls right before the second.
    have hgate : i + 2 ≠ j := by
      rintro rfl
      have ho := hj.1
      simp [ht] at ho
    have hadd : i + 2 ≠ j + 1 := by
      intro he
      rw [he, hs] at ht
      simp at ht
    have hj' : j < made.length := (List.getElem?_eq_some_iff.mp hj.1).1
    have hlength : j ≤ made.calls.length := by simpa [CallTrace.calls] using hj'.le
    obtain ⟨l, call, hl, hb, hc, hf⟩ :=
      Cache.exists_freesBy (show i + 2 ≤ j by omega) hlength hstored hfresh
    obtain ⟨caller, hm⟩ := exists_caller hc
    exact ⟨l, caller, call, hl, by omega, hm, hf⟩

theorem stored_of_engineCall {own : Bool} {thread : Option Thread}
    (h : EngineCall cache made n (.notify record own thread)) :
    (cache.atCall made.calls n).get? (record.id, .containerd) = some record ∧
      record.name = record.id ∧ record.lookupState = .successful := by
  cases h with
  | notify k _ _ hp _ hs =>
    have hg := get?_of_added cache hs
    have hk : record.key = (record.id, .containerd) := by rw [← hp.type]; rfl
    rw [hk] at hg
    exact ⟨hg, hp.name, hp.lookupState⟩

theorem kept_of_engineCall {call : CacheCall} (hc : EngineCall cache made n call)
    (h : made[n]? = some (.engine, call)) (hg : (cache.atCall made.calls n).get? key = some record) :
    (cache.atCall made.calls (n + 1)).get? key = some record ∨
      ∃ announced own thread, call = .notify announced own thread ∧
        ∃ event ∈ (cache.atCall made.calls n).eventsOf call, event.concerns key = true := by
  rw [Cache.atCall_succ (getElem?_calls h)]
  cases hc with
  | gate n k => exact .inl ((Cache.get?_shouldLookup _ k key).trans hg)
  | @add n added _ ha =>
    have hne : key ≠ added.key := by
      rintro rfl
      simp [get?_of_admittedAt ha] at hg
    exact .inl ((Cache.get?_add _ added key).trans ((if_neg hne).trans hg))
  | @notify n announced own thread =>
    by_cases he : ∃ event ∈ (cache.atCall made.calls (n + 2)).eventsOf (.notify announced own thread),
        event.concerns key = true
    · exact .inr ⟨announced, own, thread, rfl, he⟩
    · left
      rw [Cache.perform_eq_replay, Cache.get?_replay_of_not_concerns]
      · exact hg
      · intro event hm
        by_contra hf
        exact he ⟨event, hm, by simpa using hf⟩

theorem orderly_of_engineCall
    (h : ∀ n call, made[n]? = some (.engine, call) → EngineCall cache made n call) :
    Orderly cache made where
  once m n _ _ _ _ _ _ hmn hm hn hk := announcements_apart (h m _ hm) (h n _ hn) hmn hm hk
  stored n _ _ _ hn := stored_of_engineCall (h n _ hn)
  kept n _ _ _ hn hg := kept_of_engineCall (h n _ hn) hn hg

end

/-- Attempts of engines amid the calls of others. -/
theorem orderly_trace (cache : Cache) (turns : List Turn) :
    Orderly cache (Turn.trace cache turns) ∧
      Turn.performAll cache turns =
        (cache.run (Turn.trace cache turns).calls, cache.heard (Turn.trace cache turns).calls) :=
  ⟨orderly_of_engineCall fun _ _ h => engineCall_trace h, Turn.performAll_eq_trace cache turns⟩

end Attribution
