import Attribution.Proofs.Cache.Call
import Mathlib.Data.List.Induction

namespace Attribution

/-- The record is the one that was added last under a key, which was not freed since. It has the name
that it was given last. -/
def LastAdded (key : ContainerKey) (history : List CacheEvent) (record : ContainerRecord) : Prop :=
  ∃ before added after, history = before ++ .add added :: after ∧ added.key = key ∧
    (∀ event ∈ after, event.adds key = false ∧ event.frees key = false) ∧
    record = after.foldl CacheEvent.revise added

/-- A key was added, or asked for at the gate, and not freed since. -/
def Claimed (key : ContainerKey) (history : List CacheEvent) : Prop :=
  ∃ before claim after, history = before ++ claim :: after ∧ claim.claims key = true ∧
    ∀ event ∈ after, event.frees key = false

/-- The cache says of every key what the history makes of it. -/
structure Recounts (cache : Cache) (history : List CacheEvent) : Prop where
  get : ∀ key record, cache.get? key = some record ↔ LastAdded key history record
  gate : ∀ key, (cache.shouldLookup key).1 = true ↔ ¬Claimed key history
  size : ∃ stored : Finset ContainerKey, stored.card = cache.size ∧
    ∀ key, key ∈ stored ↔ (cache.get? key).isSome = true
  apart : ∀ key, ¬((cache.get? key).isSome = true ∧ cache.isPending key = true)
  /-- An event that is not about a key leaves the answers about it as they are. -/
  others : ∀ key event, event.concerns key = false →
    (cache.apply event).get? key = cache.get? key ∧
      ((cache.apply event).shouldLookup key).1 = (cache.shouldLookup key).1

theorem split_of_concat_eq {α : Type} {xs before after : List α} {x y : α}
    (h : xs ++ [x] = before ++ y :: after) :
    (xs = before ∧ x = y ∧ after = []) ∨ ∃ rest, after = rest ++ [x] ∧ xs = before ++ y :: rest := by
  rcases List.eq_nil_or_concat' after with rfl | ⟨rest, z, rfl⟩
  · obtain ⟨hx, hy⟩ := List.append_singleton_inj.mp h
    exact Or.inl ⟨hx, hy, rfl⟩
  · rw [← List.cons_append, ← List.append_assoc] at h
    obtain ⟨hx, hy⟩ := List.append_singleton_inj.mp h
    exact Or.inr ⟨rest, by rw [hy], hx⟩

theorem claimed_concat {key : ContainerKey} {history : List CacheEvent} {event : CacheEvent} :
    Claimed key (history ++ [event]) ↔
      event.claims key = true ∨ (Claimed key history ∧ event.frees key = false) := by
  constructor
  · rintro ⟨before, claim, after, hs, hc, hf⟩
    rcases split_of_concat_eq hs with ⟨_, rfl, _⟩ | ⟨rest, rfl, rfl⟩
    · exact Or.inl hc
    · refine Or.inr ⟨⟨before, claim, rest, rfl, hc, ?_⟩, hf event (by simp)⟩
      exact fun e he => hf e (List.mem_append_left _ he)
  · rintro (hc | ⟨⟨before, claim, after, rfl, hc, hf⟩, he⟩)
    · exact ⟨history, event, [], rfl, hc, by simp⟩
    · refine ⟨before, claim, after ++ [event], by simp, hc, ?_⟩
      intro e hm
      rcases List.mem_append.mp hm with hm | hm
      · exact hf e hm
      · rwa [List.mem_singleton.mp hm]

theorem lastAdded_concat {key : ContainerKey} {history : List CacheEvent} {event : CacheEvent}
    {record : ContainerRecord} :
    LastAdded key (history ++ [event]) record ↔
      (event = .add record ∧ record.key = key) ∨
        (event.adds key = false ∧ event.frees key = false ∧
          ∃ old, LastAdded key history old ∧ record = CacheEvent.revise old event) := by
  constructor
  · rintro ⟨before, added, after, hs, hk, hf, rfl⟩
    rcases split_of_concat_eq hs with ⟨_, rfl, rfl⟩ | ⟨rest, rfl, rfl⟩
    · exact Or.inl ⟨rfl, hk⟩
    · obtain ⟨ha, he⟩ := hf event (by simp)
      refine Or.inr ⟨ha, he, rest.foldl CacheEvent.revise added, ?_, by simp⟩
      exact ⟨before, added, rest, rfl, hk, fun e hm => hf e (List.mem_append_left _ hm), rfl⟩
  · rintro (⟨rfl, hk⟩ | ⟨ha, he, old, ⟨before, added, after, rfl, hk, hf, rfl⟩, rfl⟩)
    · exact ⟨history, record, [], rfl, hk, by simp, rfl⟩
    · refine ⟨before, added, after ++ [event], by simp, hk, ?_, by simp⟩
      intro e hm
      rcases List.mem_append.mp hm with hm | hm
      · exact hf e hm
      · rw [List.mem_singleton.mp hm]
        exact ⟨ha, he⟩

namespace Cache

/-- What every cache keeps to that began empty. -/
structure Sound (cache : Cache) : Prop where
  nodup : (Assoc.keys cache.records).Nodup
  keyed : ∀ key record, cache.get? key = some record → record.key = key
  apart : ∀ key, (cache.get? key).isSome = true → cache.isPending key = false

theorem sound_empty : Sound {} :=
  ⟨List.nodup_nil, fun _ _ h => by simp [get?, Assoc.find?] at h,
    fun _ h => by simp [get?, Assoc.find?] at h⟩

theorem Sound.get?_remove {cache : Cache} (hs : cache.Sound) (key : ContainerKey) :
    (cache.remove key).get? key = none := Assoc.find?_erase_self hs.nodup key

theorem nodup_apply {cache : Cache} (hn : (Assoc.keys cache.records).Nodup) (event : CacheEvent) :
    (Assoc.keys (cache.apply event).records).Nodup := by
  cases event with
  | gate key =>
    simp only [apply, shouldLookup]
    split <;> exact hn
  | add record => exact Assoc.nodup_keys_set hn record.key record
  | remove key => exact Assoc.nodup_keys_erase hn key
  | reset => exact List.nodup_nil
  | rename key name =>
    simp only [apply, rename]
    split
    · exact hn
    · exact Assoc.nodup_keys_set hn key _
  | _ => exact hn

theorem get?_apply_eq_some_iff {cache : Cache} (hs : cache.Sound) {event : CacheEvent}
    {key : ContainerKey} {record : ContainerRecord} :
    (cache.apply event).get? key = some record ↔
      (event = .add record ∧ record.key = key) ∨
        (event.adds key = false ∧ event.frees key = false ∧
          ∃ old, cache.get? key = some old ∧ record = CacheEvent.revise old event) := by
  cases event with
  | gate k => simp [apply, get?_shouldLookup, CacheEvent.adds, CacheEvent.frees, CacheEvent.revise]
  | add added =>
    rw [apply, get?_add]
    by_cases hk : added.key = key
    · subst hk
      simp only [if_true, Option.some.injEq, CacheEvent.add.injEq, CacheEvent.adds, decide_true,
        Bool.true_eq_false, false_and, or_false]
      exact ⟨fun h => ⟨h, h ▸ rfl⟩, And.left⟩
    · have hn : ¬(added = record ∧ record.key = key) := by
        rintro ⟨rfl, h⟩
        exact hk h
      simp [CacheEvent.adds, CacheEvent.frees, CacheEvent.revise, hk, Ne.symm hk, hn]
  | remove k =>
    by_cases hk : k = key
    · subst hk
      simp [apply, hs.get?_remove, CacheEvent.frees]
    · simp [apply, get?_remove_of_ne (Ne.symm hk), CacheEvent.adds, CacheEvent.frees,
        CacheEvent.revise, hk]
  | reset => simp [apply, reset, get?, Assoc.find?, CacheEvent.frees]
  | rename k name =>
    rw [apply, get?_rename]
    by_cases hk : key = k
    · subst hk
      simp only [if_true, Option.map_eq_some_iff, reduceCtorEq, false_and, false_or,
        CacheEvent.adds, CacheEvent.frees, true_and]
      refine exists_congr fun old => and_congr_right fun ho => ?_
      simp [CacheEvent.revise, hs.keyed key old ho, eq_comm]
    · simp only [if_neg hk, reduceCtorEq, false_and, false_or, CacheEvent.adds, CacheEvent.frees,
        true_and]
      constructor
      · intro hg
        exact ⟨record, hg, by simp [CacheEvent.revise, hs.keyed key record hg, Ne.symm hk]⟩
      · rintro ⟨old, ho, rfl⟩
        simpa [CacheEvent.revise, hs.keyed key old ho, Ne.symm hk] using ho
  | subscribe listener =>
    have hg : (cache.apply (.subscribe listener)).get? key = cache.get? key := rfl
    simp [hg, CacheEvent.adds, CacheEvent.frees, CacheEvent.revise]
  | _ => simp [apply, CacheEvent.adds, CacheEvent.frees, CacheEvent.revise]

theorem revise_key (record : ContainerRecord) (event : CacheEvent) :
    (CacheEvent.revise record event).key = record.key := by
  cases event with
  | rename key name =>
    simp only [CacheEvent.revise]
    split <;> rfl
  | _ => rfl

theorem keyed_apply {cache : Cache} (hs : cache.Sound) {event : CacheEvent} {key : ContainerKey}
    {record : ContainerRecord} (h : (cache.apply event).get? key = some record) :
    record.key = key := by
  rcases (get?_apply_eq_some_iff hs).mp h with ⟨_, hk⟩ | ⟨_, _, old, ho, rfl⟩
  · exact hk
  · exact (revise_key old event).trans (hs.keyed key old ho)

theorem apart_apply {cache : Cache} (hs : cache.Sound) {event : CacheEvent} {key : ContainerKey}
    (h : ((cache.apply event).get? key).isSome = true) :
    (cache.apply event).isPending key = false := by
  by_cases hc : event.concerns key = false
  · rw [get?_apply_of_not_concerns hc] at h
    exact (isPending_apply_of_not_concerns hc).trans (hs.apart key h)
  cases event with
  | gate k =>
    rw [apply, get?_shouldLookup] at h
    rw [apply, isPending_shouldLookup, hs.apart key h]
    by_cases hk : key = k
    · subst hk
      simp [knows, h]
    · simp [hk]
  | add record =>
    have hk : record.key = key := by simpa [CacheEvent.concerns] using hc
    simp [apply, isPending_add, hk]
  | remove k =>
    have hk : k = key := by simpa [CacheEvent.concerns] using hc
    simp [apply, isPending_remove, hk]
  | reset => rfl
  | rename k name =>
    have hk : k = key := by simpa [CacheEvent.concerns] using hc
    subst hk
    rw [apply, get?_rename, if_pos rfl, Option.isSome_map] at h
    exact (isPending_rename cache k k name).trans (hs.apart k h)
  | get => exact hs.apart key h
  | _ => simp [CacheEvent.concerns] at hc

theorem sound_apply {cache : Cache} (hs : cache.Sound) (event : CacheEvent) :
    (cache.apply event).Sound :=
  ⟨nodup_apply hs.nodup event, fun _ _ h => keyed_apply hs h, fun _ h => apart_apply hs h⟩

theorem sound_replay {cache : Cache} (hs : cache.Sound) (events : List CacheEvent) :
    (cache.replay events).Sound := by
  induction events generalizing cache with
  | nil => exact hs
  | cons event events ih => exact ih (sound_apply hs event)

theorem knows_apply_iff {cache : Cache} (hs : cache.Sound) {event : CacheEvent} {key : ContainerKey} :
    (cache.apply event).knows key = true ↔
      event.claims key = true ∨ (cache.knows key = true ∧ event.frees key = false) := by
  constructor
  · intro h
    by_cases hc : event.concerns key = false
    · rw [knows, get?_apply_of_not_concerns hc, isPending_apply_of_not_concerns hc] at h
      refine Or.inr ⟨h, ?_⟩
      cases event <;> simp_all [CacheEvent.concerns, CacheEvent.frees]
    · cases event with
      | gate k => exact Or.inl (by simpa [CacheEvent.concerns, CacheEvent.claims] using hc)
      | add record => exact Or.inl (by simpa [CacheEvent.concerns, CacheEvent.claims] using hc)
      | remove k =>
        have hk : k = key := by simpa [CacheEvent.concerns] using hc
        subst hk
        simp [knows, apply, hs.get?_remove, isPending_remove] at h
      | reset => simp [knows, apply, reset, get?, Assoc.find?, isPending] at h
      | rename k name =>
        have hk : k = key := by simpa [CacheEvent.concerns] using hc
        subst hk
        exact Or.inr ⟨by simpa [knows, apply, get?_rename, isPending_rename] using h, rfl⟩
      | get => exact Or.inr ⟨h, rfl⟩
      | _ => simp [CacheEvent.concerns] at hc
  · rintro (hc | ⟨hk, hf⟩)
    · exact knows_apply_of_claims hc
    · exact knows_apply_of_not_frees hk hf

theorem get?_replay_eq_some_iff (history : List CacheEvent) (key : ContainerKey)
    (record : ContainerRecord) :
    (replay {} history).get? key = some record ↔ LastAdded key history record := by
  induction history using List.reverseRecOn generalizing record with
  | nil => simp [replay_nil, LastAdded, get?, Assoc.find?]
  | append_singleton history event ih =>
    have hs := sound_replay sound_empty history
    rw [replay_append, lastAdded_concat]
    simp only [← ih]
    exact get?_apply_eq_some_iff hs

theorem knows_replay_iff (history : List CacheEvent) (key : ContainerKey) :
    (replay {} history).knows key = true ↔ Claimed key history := by
  induction history using List.reverseRecOn with
  | nil => simp [replay_nil, Claimed, knows, get?, Assoc.find?, isPending]
  | append_singleton history event ih =>
    have hs := sound_replay sound_empty history
    rw [replay_append, claimed_concat, ← ih]
    exact knows_apply_iff hs

theorem replay_recounts (history : List CacheEvent) : Recounts (replay {} history) history := by
  have hs := sound_replay sound_empty history
  refine ⟨get?_replay_eq_some_iff history, ?_, Assoc.exists_card_eq_length hs.nodup, ?_, ?_⟩
  · intro key
    rw [shouldLookup_fst, ← knows_replay_iff]
    simp
  · rintro key ⟨hg, hp⟩
    simp [hs.apart key hg] at hp
  · intro key event hc
    have hg : ((replay {} history).apply event).get? key = (replay {} history).get? key :=
      get?_apply_of_not_concerns hc
    have hp : ((replay {} history).apply event).isPending key = (replay {} history).isPending key :=
      isPending_apply_of_not_concerns hc
    exact ⟨hg, by simp only [shouldLookup_fst, knows, hg, hp]⟩

/-- The answers of a cache that began empty are those of its history, after a run of calls and at
every moment of it, be it amid an announcement; and a reset makes the cache a new one. -/
theorem run_recounts_history (calls : List CacheCall) :
    Recounts (run {} calls) (history {} calls) ∧
      (∀ n, Recounts (replay {} ((history {} calls).take n)) ((history {} calls).take n)) ∧
      run {} (calls ++ [.reset]) = {} := by
  refine ⟨?_, fun n => replay_recounts _, ?_⟩
  · rw [run_eq_replay]
    exact replay_recounts _
  · rw [run_append]
    rfl

end Cache

end Attribution
