import Attribution.Proofs.Engine.Identity
import Attribution.Proofs.Engine.Outcome

namespace Attribution

/-- What an attempt brings to the cache, if it has its container and its limits. -/
def Attempt.offer? (attempt : Attempt) : Option (ContainerRecord × Thread) :=
  attempt.engine.offer? attempt.service attempt.limits attempt.network attempt.thread

theorem Attempt.resolve_outcome (attempt : Attempt) {cache : Cache}
    (hp : ∀ listener ∈ cache.listeners, listener.Passive) :
    Outcome attempt.limits cache attempt.thread (attempt.resolve cache) :=
  Engine.resolve_outcome hp

namespace Cache

/-- The cache behind attempts. -/
def after (cache : Cache) : List Attempt → Cache
  | [] => cache
  | attempt :: attempts => (attempt.resolve cache).cache.after attempts

/-- Nothing is reserved, and the listeners only listen. -/
structure Quiet (cache : Cache) : Prop where
  unreserved : cache.pending = []
  passive : ∀ listener ∈ cache.listeners, listener.Passive

variable {cache : Cache} {record : ContainerRecord} {key : ContainerKey}

theorem after_append (cache : Cache) (attempts later : List Attempt) :
    cache.after (attempts ++ later) = (cache.after attempts).after later := by
  induction attempts generalizing cache with
  | nil => rfl
  | cons attempt attempts ih => exact ih (attempt.resolve cache).cache

theorem after_take_succ {made : List Attempt} {n : Nat} {attempt : Attempt}
    (h : made[n]? = some attempt) :
    cache.after (made.take (n + 1)) = (attempt.resolve (cache.after (made.take n))).cache := by
  rw [List.take_add_one, h, after_append]
  rfl

theorem knows_eq_isSome (hq : cache.Quiet) (key : ContainerKey) :
    cache.knows key = (cache.get? key).isSome := by
  simp [knows, isPending, hq.unreserved]

theorem Quiet.resolve (hq : cache.Quiet) (attempt : Attempt) :
    (attempt.resolve cache).cache.Quiet ∧
      (attempt.resolve cache).cache.listeners = cache.listeners := by
  cases attempt.resolve_outcome hq.passive with
  | failed _ same _ =>
    rw [same]
    exact ⟨hq, rfl⟩
  | known _ _ _ _ _ same _ =>
    rw [same]
    exact ⟨hq, rfl⟩
  | published _ _ _ _ _ _ _ stored _ =>
    rw [stored]
    exact ⟨⟨hq.unreserved, hq.passive⟩, rfl⟩

theorem Quiet.after (hq : cache.Quiet) (attempts : List Attempt) :
    (cache.after attempts).Quiet ∧ (cache.after attempts).listeners = cache.listeners := by
  induction attempts generalizing cache with
  | nil => exact ⟨hq, rfl⟩
  | cons attempt attempts ih =>
    obtain ⟨hq', hl⟩ := hq.resolve attempt
    obtain ⟨hq'', hl'⟩ := ih hq'
    exact ⟨hq'', hl'.trans hl⟩

theorem get?_resolve (hq : cache.Quiet) (hg : cache.get? key = some record) (attempt : Attempt) :
    (attempt.resolve cache).cache.get? key = some record := by
  cases attempt.resolve_outcome hq.passive with
  | failed _ same _ => rw [same, hg]
  | known _ _ _ _ _ same _ => rw [same, hg]
  | published added _ _ _ _ _ fresh stored _ =>
    have hn := get?_eq_none_of_knows fresh
    have hne : key ≠ added.key := by
      rintro rfl
      simp [hn] at hg
    rw [stored, get?_extend hn, if_neg hne, hg]

theorem get?_after (hq : cache.Quiet) (hg : cache.get? key = some record) (attempts : List Attempt) :
    (cache.after attempts).get? key = some record := by
  induction attempts generalizing cache with
  | nil => exact hg
  | cons attempt attempts ih => exact ih (hq.resolve attempt).1 (get?_resolve hq hg attempt)

theorem after_of_le (cache : Cache) (made : List Attempt) {m n : Nat} (h : m ≤ n) :
    cache.after (made.take n) = (cache.after (made.take m)).after ((made.take n).drop m) := by
  have ht : (made.take n).take m = made.take m := by rw [List.take_take, Nat.min_eq_left h]
  rw [← after_append, ← ht, List.take_append_drop]

/-- What attempts store is found. -/
theorem lookupState_of_get?_after (hq : cache.Quiet) {attempts : List Attempt}
    (h : (cache.after attempts).get? key = some record) :
    record.lookupState = .successful ∨ cache.get? key = some record := by
  induction attempts generalizing cache with
  | nil => exact Or.inr h
  | cons attempt attempts ih =>
    rcases ih (hq.resolve attempt).1 h with hs | hg
    · exact Or.inl hs
    · cases attempt.resolve_outcome hq.passive with
      | failed _ same _ => exact Or.inr (by rwa [same] at hg)
      | known _ _ _ _ _ same _ => exact Or.inr (by rwa [same] at hg)
      | published added _ _ _ made _ fresh stored _ =>
        rw [stored, get?_extend (get?_eq_none_of_knows fresh)] at hg
        by_cases hk : key = added.key
        · rw [if_pos hk] at hg
          exact Or.inl (Option.some.inj hg ▸ made.lookupState)
        · rw [if_neg hk] at hg
          exact Or.inr hg

theorem exists_get?_resolve (hq : cache.Quiet) {attempt : Attempt}
    (h : (attempt.resolve cache).answer = .ok true) :
    ∃ record, (attempt.resolve cache).cache.get?
      ((attempt.resolve cache).thread.containerId, .containerd) = some record := by
  cases attempt.resolve_outcome hq.passive with
  | failed answer _ _ => exact absurd h answer
  | known id _ _ owner knows same _ =>
    rw [knows_eq_isSome hq, Option.isSome_iff_exists] at knows
    rw [owner, same]
    exact knows
  | published record _ _ owner made _ fresh stored _ =>
    rw [owner, stored, ← made.key_eq, get?_extend (get?_eq_none_of_knows fresh), if_pos rfl]
    exact ⟨record, rfl⟩

/-- What is stored behind attempts was stored before them, or one of them succeeded with it. -/
theorem get?_after_cases {cache : Cache} (hq : cache.Quiet) {attempts : List Attempt} {id : String}
    (h : ((cache.after attempts).get? (id, .containerd)).isSome = true) :
    (cache.get? (id, .containerd)).isSome = true ∨
      ∃ n, ∃ attempt : Attempt, attempts[n]? = some attempt ∧
        (attempt.resolve (cache.after (attempts.take n))).answer = .ok true ∧
        (attempt.resolve (cache.after (attempts.take n))).thread.containerId = id := by
  induction attempts generalizing cache with
  | nil => exact Or.inl h
  | cons attempt attempts ih =>
    rcases ih (hq.resolve attempt).1 h with hg | ⟨n, later, hn, ha, hi⟩
    · cases attempt.resolve_outcome hq.passive with
      | failed _ same _ => exact Or.inl (by rwa [same] at hg)
      | known _ _ _ _ _ same _ => exact Or.inl (by rwa [same] at hg)
      | published record _ answer owner made _ fresh stored _ =>
        rw [stored, get?_extend (get?_eq_none_of_knows fresh)] at hg
        by_cases hk : (id, ContainerType.containerd) = record.key
        · have hi : record.id = id := (congrArg Prod.fst hk).symm
          refine Or.inr ⟨0, attempt, rfl, answer, ?_⟩
          exact (congrArg Thread.containerId owner).trans hi
        · rw [if_neg hk] at hg
          exact Or.inl hg
    · exact Or.inr ⟨n + 1, later, hn, ha, hi⟩

end Cache

/-- An attempt whose limits cannot be had ends with that fault and changes nothing. -/
theorem Attempt.resolve_unlimited {attempt : Attempt} {cache : Cache} {key : LimitsKey}
    {fault : Fault} (hk : key ∈ (attempt.resolve cache).asked)
    (hl : attempt.limits key = .error fault) :
    (attempt.resolve cache).answer = .error fault ∧ (attempt.resolve cache).cache = cache ∧
      (attempt.resolve cache).hearings = [] := by
  revert hk
  unfold Attempt.resolve Engine.resolve
  split
  next found client hm hc =>
    simp only
    split
    next => simp
    next reply network hr =>
      split
      next => simp
      next container hs =>
        unfold Engine.complete
        simp only
        split
        next failure hf =>
          intro hk
          obtain rfl := List.mem_singleton.mp hk
          obtain rfl := Except.error.inj (hf.symm.trans hl)
          exact ⟨rfl, rfl, rfl⟩
        next found hf =>
          intro hk
          obtain rfl := List.mem_singleton.mp hk
          simp [hf] at hl
  next => simp

/-- How attempts, one after the other, leave a cache that nobody else changes. -/
structure Tidy (cache : Cache) (made : List Attempt) : Prop where
  /-- No key is reserved before, between or behind the attempts. -/
  unreserved : ∀ n, (cache.after (made.take n)).pending = []
  /-- A success leaves a record stored under the id of the thread, which no later attempt changes. It
  is marked as found, unless it was stored before all attempts and is left as it was. -/
  stored : ∀ n (attempt : Attempt), made[n]? = some attempt →
    (attempt.resolve (cache.after (made.take n))).answer = .ok true →
    ∃ record : ContainerRecord,
      (record.lookupState = .successful ∨
        cache.get? ((attempt.resolve (cache.after (made.take n))).thread.containerId, .containerd) =
          some record) ∧
      ∀ m, n < m → (cache.after (made.take m)).get?
        ((attempt.resolve (cache.after (made.take n))).thread.containerId, .containerd) = some record
  /-- An attempt whose limits cannot be had leaves the cache and its listeners as they were. -/
  unlimited : ∀ n (attempt : Attempt) key fault, made[n]? = some attempt →
    key ∈ (attempt.resolve (cache.after (made.take n))).asked → attempt.limits key = .error fault →
    (attempt.resolve (cache.after (made.take n))).answer = .error fault ∧
      cache.after (made.take (n + 1)) = cache.after (made.take n) ∧
      (attempt.resolve (cache.after (made.take n))).hearings = []
  /-- The first attempt that has both a container and its limits publishes the container, however
  many failed before, and every listener hears it. -/
  published : ∀ n (attempt : Attempt) record owner, made[n]? = some attempt →
    attempt.offer? = some (record, owner) → cache.get? (record.id, .containerd) = none →
    (∀ m (earlier : Attempt), m < n → made[m]? = some earlier →
      (earlier.resolve (cache.after (made.take m))).answer = .ok true →
      (earlier.resolve (cache.after (made.take m))).thread.containerId ≠ record.id) →
    (attempt.resolve (cache.after (made.take n))).answer = .ok true ∧
      (cache.after (made.take (n + 1))).get? (record.id, .containerd) =
        some (Engine.asPublished record) ∧
      (attempt.resolve (cache.after (made.take n))).hearings.map (·.listener) =
        cache.listeners.map (·.name) ∧
      ∀ hearing ∈ (attempt.resolve (cache.after (made.take n))).hearings,
        hearing.record = Engine.asPublished record ∧ hearing.thread = some owner

section

variable {cache : Cache} {made : List Attempt} {n : Nat} {attempt : Attempt}

theorem stored_of_success (hq : cache.Quiet) (hn : made[n]? = some attempt)
    (ha : (attempt.resolve (cache.after (made.take n))).answer = .ok true) :
    ∃ record : ContainerRecord,
      (record.lookupState = .successful ∨
        cache.get? ((attempt.resolve (cache.after (made.take n))).thread.containerId, .containerd) =
          some record) ∧
      ∀ m, n < m → (cache.after (made.take m)).get?
        ((attempt.resolve (cache.after (made.take n))).thread.containerId, .containerd) =
          some record := by
  obtain ⟨record, hg⟩ := Cache.exists_get?_resolve (hq.after (made.take n)).1 ha
  rw [← Cache.after_take_succ hn] at hg
  refine ⟨record, Cache.lookupState_of_get?_after hq hg, fun m hm => ?_⟩
  rw [Cache.after_of_le cache made (show n + 1 ≤ m from hm)]
  exact Cache.get?_after (hq.after (made.take (n + 1))).1 hg _

theorem published_of_offer? {record : ContainerRecord} {owner : Thread} (hq : cache.Quiet)
    (hn : made[n]? = some attempt) (ho : attempt.offer? = some (record, owner))
    (hg : (cache.after (made.take n)).get? (record.id, .containerd) = none) :
    (attempt.resolve (cache.after (made.take n))).answer = .ok true ∧
      (cache.after (made.take (n + 1))).get? (record.id, .containerd) =
        some (Engine.asPublished record) ∧
      (attempt.resolve (cache.after (made.take n))).hearings.map (·.listener) =
        cache.listeners.map (·.name) ∧
      ∀ hearing ∈ (attempt.resolve (cache.after (made.take n))).hearings,
        hearing.record = Engine.asPublished record ∧ hearing.thread = some owner := by
  obtain ⟨hbefore, hlisteners⟩ := hq.after (made.take n)
  obtain ⟨ha, _, hcase⟩ :=
    Engine.outcome_of_offer? (fun l hl => (hbefore.passive l hl).discreet) ho
  rcases hcase with ⟨hk, _⟩ | ⟨_, hc, hh⟩
  · rw [Cache.knows_eq_isSome hbefore, hg] at hk
    simp at hk
  · have hkey : (Engine.asPublished record).key = (record.id, .containerd) :=
      (published_asPublished (Engine.type_of_offer? ho)).key_eq
    have hnone : (cache.after (made.take n)).get? (Engine.asPublished record).key = none := by
      rw [hkey, hg]
    obtain ⟨_, hl, hr⟩ := Announcement.tellAll_of_passive (some owner) hbefore.passive
      ⟨(cache.after (made.take n)).extend (Engine.asPublished record), Engine.asPublished record, true⟩
    have hheard : (attempt.resolve (cache.after (made.take n))).hearings =
        (Announcement.tellAll (some owner) ⟨(cache.after (made.take n)).extend
          (Engine.asPublished record), Engine.asPublished record, true⟩
          (cache.after (made.take n)).listeners).2 := hh
    refine ⟨ha, ?_, ?_, ?_⟩
    · have hs : (attempt.resolve (cache.after (made.take n))).cache =
          (cache.after (made.take n)).extend (Engine.asPublished record) := hc
      rw [Cache.after_take_succ hn, hs, Cache.get?_extend hnone, if_pos hkey.symm]
    · rw [hheard, hl, hlisteners]
    · rw [hheard]
      exact hr

/-- Attempts on a cache without reservations leave none, keep what they store, and miss no container
for want of limits. -/
theorem attempts_leave_no_reservation (hq : cache.Quiet) (made : List Attempt) : Tidy cache made where
  unreserved n := (hq.after (made.take n)).1.unreserved
  stored _ _ hn ha := stored_of_success hq hn ha
  unlimited _ _ _ _ hn hk hl := by
    rw [Cache.after_take_succ hn]
    exact Attempt.resolve_unlimited hk hl
  published n attempt record owner hn ho hg hfirst := by
    apply published_of_offer? hq hn ho
    by_contra hs
    rcases Cache.get?_after_cases hq (Option.isSome_iff_ne_none.mpr hs) with
      hc | ⟨m, earlier, hm, ha, hi⟩
    · simp [hg] at hc
    · have hlt : m < n := by
        have := (List.getElem?_eq_some_iff.mp hm).1
        rw [List.length_take] at this
        omega
      rw [List.getElem?_take_of_lt hlt] at hm
      rw [List.take_take, Nat.min_eq_left hlt.le] at ha hi
      exact hfirst m earlier hlt hm ha hi

end

namespace Retry

open Namesake (digits engine network runtime thread)

def attempt (limits : LimitsSource) : Attempt :=
  ⟨engine, runtime [{ id := digits }], limits, network, thread⟩

def watched : Cache := Cache.subscribe {} (.plain "watch")

theorem watched_quiet : watched.Quiet := by
  refine ⟨rfl, ?_⟩
  intro listener hl
  obtain rfl : listener = .plain "watch" := List.mem_singleton.mp hl
  exact fun _ _ => rfl

/-- The limits cannot be had at first, and the second attempt has them. -/
def attempts : List Attempt := [attempt fun _ => .error .nullInPath, attempt fun _ => .ok {}]

theorem retry_leaves_no_reservation :
    watched.Quiet ∧ Tidy watched attempts ∧
      (watched.after (attempts.take 1)).size = 0 ∧ (watched.after attempts).size = 1 :=
  ⟨watched_quiet, attempts_leave_no_reservation watched_quiet attempts, by decide +kernel⟩

/-- An attempt succeeds with a record that somebody stored before it and did not mark as found. -/
theorem success_keeps_unfinished_record :
    (Cache.add {} { id := "0123456789ab" }).pending = [] ∧
      (Cache.add {} { id := "0123456789ab" }).listeners = [] ∧
      ((attempt fun _ => .ok {}).resolve (Cache.add {} { id := "0123456789ab" })).answer = .ok true ∧
      ((attempt fun _ => .ok {}).resolve
        (Cache.add {} { id := "0123456789ab" })).thread.containerId = "0123456789ab" ∧
      (((attempt fun _ => .ok {}).resolve (Cache.add {} { id := "0123456789ab" })).cache.get?
        ("0123456789ab", .containerd)).map (·.lookupState) = some .pending := by
  refine ⟨rfl, rfl, ?_⟩
  decide +kernel

end Retry
end Attribution
