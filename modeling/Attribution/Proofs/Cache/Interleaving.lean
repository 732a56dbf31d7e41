import Attribution.Proofs.Cache.Call
import Mathlib.Logic.Function.Basic

namespace Attribution

inductive Party where
  | publisher (record : ContainerRecord) (thread : Option Thread)
  | remover (key : ContainerKey)

/-- Where a party stands: a publisher that was admitted stores its record, then announces it. -/
inductive Stage where
  | ready
  | admitted
  | stored
  | finished
  deriving DecidableEq, Repr

namespace Party

/-- The call that a party makes next. -/
def call? : Party → Stage → Option CacheCall
  | .publisher record _, .ready => some (.shouldLookup record.key)
  | .publisher record _, .admitted => some (.add record)
  | .publisher record thread, .stored => some (.notify record true thread)
  | .remover key, .ready => some (.remove key)
  | _, _ => none

/-- Where a party stands after its next call. -/
def advance (cache : Cache) : Party → Stage → Stage
  | .publisher record _, .ready => if (cache.shouldLookup record.key).1 then .admitted else .finished
  | .publisher _ _, .admitted => .stored
  | _, _ => .finished

end Party

/-- A shared cache, and where its parties stand. -/
structure Site (ι : Type) where
  cache : Cache
  stage : ι → Stage

/-- Parties with the cache they begin with, whose listeners are passive, and who moves at which time.
A party that has nothing left to do leaves its moves unused. -/
structure Interleaving (ι : Type) where
  parties : ι → Party
  cache : Cache
  passive : ∀ listener ∈ cache.listeners, listener.Passive
  schedule : Nat → ι

namespace Interleaving

variable {ι : Type} [DecidableEq ι]

def step (parties : ι → Party) (site : Site ι) (i : ι) : Site ι :=
  match (parties i).call? (site.stage i) with
  | none => site
  | some call =>
    { cache := (site.cache.perform call).1
      stage := Function.update site.stage i ((parties i).advance site.cache (site.stage i)) }

/-- Where all stand at a time. -/
def site (run : Interleaving ι) : Nat → Site ι
  | 0 => ⟨run.cache, fun _ => .ready⟩
  | n + 1 => step run.parties (run.site n) (run.schedule n)

/-- The party makes the call at the time. -/
def Calls (run : Interleaving ι) (n : Nat) (i : ι) (call : CacheCall) : Prop :=
  run.schedule n = i ∧ (run.parties i).call? ((run.site n).stage i) = some call

/-- The gate admits the party to a key at the time. -/
def Admits (run : Interleaving ι) (n : Nat) (i : ι) (key : ContainerKey) : Prop :=
  run.Calls n i (.shouldLookup key) ∧ ((run.site n).cache.shouldLookup key).1 = true

variable {run : Interleaving ι} {m n : Nat} {i : ι} {call : CacheCall} {key : ContainerKey}

theorem site_succ_of_calls (h : run.Calls n i call) :
    run.site (n + 1) =
      { cache := ((run.site n).cache.perform call).1
        stage := Function.update (run.site n).stage i
          ((run.parties i).advance (run.site n).cache ((run.site n).stage i)) } := by
  obtain ⟨rfl, hc⟩ := h
  simp [site, step, hc]

theorem site_succ_of_idle
    (h : (run.parties (run.schedule n)).call? ((run.site n).stage (run.schedule n)) = none) :
    run.site (n + 1) = run.site n := by
  simp [site, step, h]

theorem calls_or_idle (run : Interleaving ι) (n : Nat) :
    (∃ i call, run.Calls n i call) ∨ run.site (n + 1) = run.site n := by
  cases hc : (run.parties (run.schedule n)).call? ((run.site n).stage (run.schedule n)) with
  | none => exact Or.inr (site_succ_of_idle hc)
  | some call => exact Or.inl ⟨run.schedule n, call, rfl, hc⟩

theorem calls_unique {j : ι} {other : CacheCall} (h : run.Calls n i call)
    (h' : run.Calls n j other) : i = j ∧ call = other := by
  obtain ⟨rfl, hc⟩ := h
  obtain ⟨rfl, hc'⟩ := h'
  exact ⟨rfl, Option.some.inj (hc.symm.trans hc')⟩

theorem calls_cases (h : run.Calls n i call) :
    (∃ record thread, run.parties i = .publisher record thread ∧
      (((run.site n).stage i = .ready ∧ call = .shouldLookup record.key) ∨
        ((run.site n).stage i = .admitted ∧ call = .add record) ∨
        ((run.site n).stage i = .stored ∧ call = .notify record true thread))) ∨
    ∃ key, run.parties i = .remover key ∧ (run.site n).stage i = .ready ∧ call = .remove key := by
  obtain ⟨_, hc⟩ := h
  cases hp : run.parties i with
  | publisher record thread =>
    refine Or.inl ⟨record, thread, rfl, ?_⟩
    cases hs : (run.site n).stage i <;> rw [hp, hs] at hc
    case ready => exact Or.inl ⟨rfl, (Option.some.inj hc).symm⟩
    case admitted => exact Or.inr (Or.inl ⟨rfl, (Option.some.inj hc).symm⟩)
    case stored => exact Or.inr (Or.inr ⟨rfl, (Option.some.inj hc).symm⟩)
    case finished => simp [Party.call?] at hc
  | remover key =>
    refine Or.inr ⟨key, rfl, ?_⟩
    cases hs : (run.site n).stage i <;> rw [hp, hs] at hc
    case ready => exact ⟨rfl, (Option.some.inj hc).symm⟩
    all_goals simp [Party.call?] at hc

theorem stage_succ_of_ne {j : ι} (h : run.schedule n ≠ j) :
    (run.site (n + 1)).stage j = (run.site n).stage j := by
  rcases calls_or_idle run n with ⟨i, call, hc⟩ | hi
  · rw [site_succ_of_calls hc]
    exact Function.update_of_ne (Ne.symm (hc.1 ▸ h)) _ _
  · rw [hi]

theorem finished_of_le (hmn : m ≤ n) (h : (run.site m).stage i = .finished) :
    (run.site n).stage i = .finished := by
  induction n, hmn using Nat.le_induction with
  | base => exact h
  | succ n hmn ih =>
    by_cases hi : run.schedule n = i
    · have hc : (run.parties (run.schedule n)).call? ((run.site n).stage (run.schedule n)) = none := by
        rw [hi, ih]
        cases run.parties i <;> rfl
      rw [site_succ_of_idle hc]
      exact ih
    · rw [stage_succ_of_ne hi]
      exact ih

theorem notify_cases {record : ContainerRecord} {own : Bool} {thread : Option Thread}
    (h : run.Calls n i (.notify record own thread)) :
    run.parties i = .publisher record thread ∧ (run.site n).stage i = .stored := by
  rcases calls_cases h with ⟨r, t, hp, hc⟩ | ⟨k, _, _, hc⟩
  · rcases hc with ⟨_, hc⟩ | ⟨_, hc⟩ | ⟨hs, hc⟩
    · simp at hc
    · simp at hc
    · obtain ⟨rfl, _, rfl⟩ := CacheCall.notify.inj hc
      exact ⟨hp, hs⟩
  · simp at hc

/-- A publisher announces once. -/
theorem eq_of_notify {r s : ContainerRecord} {o o' : Bool} {t t' : Option Thread} (hmn : m ≤ n)
    (hm : run.Calls m i (.notify r o t)) (hn : run.Calls n i (.notify s o' t')) : m = n := by
  by_contra hne
  have hf : (run.site (m + 1)).stage i = .finished := by
    obtain ⟨hp, hs⟩ := notify_cases hm
    simp [site_succ_of_calls hm, hp, hs, Party.advance]
  have hs := (notify_cases hn).2
  rw [finished_of_le (by omega) hf] at hs
  simp at hs

theorem exists_admits {record : ContainerRecord} {thread : Option Thread}
    (hp : run.parties i = .publisher record thread)
    (h : (run.site n).stage i = .admitted ∨ (run.site n).stage i = .stored) :
    ∃ m, m < n ∧ run.Admits m i record.key := by
  induction n with
  | zero => simp [site] at h
  | succ n ih =>
    rcases calls_or_idle run n with ⟨j, call, hc⟩ | hi
    · by_cases hj : j = i
      · subst hj
        rcases calls_cases hc with ⟨r, t, hr, hs⟩ | ⟨k, hk, _⟩
        · obtain ⟨rfl, rfl⟩ := Party.publisher.inj (hp.symm.trans hr)
          rcases hs with ⟨hs, rfl⟩ | ⟨hs, _⟩ | ⟨hs, _⟩
          · rw [site_succ_of_calls hc, hp, hs] at h
            by_cases ha : ((run.site n).cache.shouldLookup record.key).1 = true
            · exact ⟨n, by omega, hc, ha⟩
            · simp [Party.advance, ha] at h
          · obtain ⟨m, hm, ha⟩ := ih (Or.inl hs)
            exact ⟨m, by omega, ha⟩
          · obtain ⟨m, hm, ha⟩ := ih (Or.inr hs)
            exact ⟨m, by omega, ha⟩
        · simp [hp] at hk
      · rw [stage_succ_of_ne (hc.1.symm ▸ hj)] at h
        obtain ⟨m, hm, ha⟩ := ih h
        exact ⟨m, by omega, ha⟩
    · rw [hi] at h
      obtain ⟨m, hm, ha⟩ := ih h
      exact ⟨m, by omega, ha⟩

theorem passive_site (run : Interleaving ι) (n : Nat) :
    ∀ listener ∈ (run.site n).cache.listeners, listener.Passive := by
  induction n with
  | zero => exact run.passive
  | succ n ih =>
    rcases calls_or_idle run n with ⟨i, call, hc⟩ | hi
    · rw [site_succ_of_calls hc]
      rcases calls_cases hc with ⟨record, thread, _, hr⟩ | ⟨key, _, _, rfl⟩
      · rcases hr with ⟨_, rfl⟩ | ⟨_, rfl⟩ | ⟨_, rfl⟩
        · simp only [Cache.perform, Cache.shouldLookup]
          split <;> exact ih
        · exact ih
        · rw [Cache.perform_notify_of_passive ih]
          exact ih
      · exact ih
    · rw [hi]
      exact ih

/-- Only a remover makes the cache forget a key. -/
theorem eq_remove_of_freesBy (hc : run.Calls n i call) (h : (run.site n).cache.FreesBy call key) :
    call = .remove key := by
  rcases calls_cases hc with ⟨record, thread, _, hr⟩ | ⟨k, _, _, rfl⟩
  · rcases hr with ⟨_, rfl⟩ | ⟨_, rfl⟩ | ⟨_, rfl⟩
    · have hf := (Cache.freesBy_of_eventsOf rfl).mp h
      simp [CacheEvent.frees] at hf
    · have hf := (Cache.freesBy_of_eventsOf rfl).mp h
      simp [CacheEvent.frees] at hf
    · have he := Cache.eventsOf_notify_of_passive (passive_site run n) record true thread
      have hf := (Cache.freesBy_of_eventsOf he).mp h
      simp [CacheEvent.frees] at hf
  · have hf := (Cache.freesBy_of_eventsOf rfl).mp h
    simpa [CacheEvent.frees] using hf

theorem exists_remove (hmn : m ≤ n) (hm : (run.site m).cache.knows key = true)
    (hn : (run.site n).cache.knows key = false) :
    ∃ l j, m ≤ l ∧ l < n ∧ run.Calls l j (.remove key) := by
  induction n, hmn using Nat.le_induction with
  | base => simp [hm] at hn
  | succ n hmn ih =>
    by_cases hk : (run.site n).cache.knows key = true
    · rcases calls_or_idle run n with ⟨i, call, hc⟩ | hi
      · by_cases hf : (run.site n).cache.FreesBy call key
        · exact ⟨n, i, hmn, by omega, eq_remove_of_freesBy hc hf ▸ hc⟩
        · have ht := Cache.knows_perform hk hf
          rw [site_succ_of_calls hc] at hn
          simp [ht] at hn
      · simp [hi, hk] at hn
    · obtain ⟨l, j, hl, hb, hr⟩ := ih (by simpa using hk)
      exact ⟨l, j, hl, by omega, hr⟩

theorem exists_remove_of_admits {j : ι} (hmn : m < n) (hm : run.Admits m i key)
    (hn : run.Admits n j key) : ∃ l z, m < l ∧ l < n ∧ run.Calls l z (.remove key) := by
  have hc : (CacheEvent.gate key).claims key = true := by simp [CacheEvent.claims]
  have hk : (run.site (m + 1)).cache.knows key = true := by
    rw [site_succ_of_calls hm.1]
    exact Cache.knows_apply_of_claims hc
  have hu : (run.site n).cache.knows key = false := by
    simpa [Cache.shouldLookup_fst] using hn.2
  obtain ⟨l, z, hl, hb, hr⟩ := exists_remove hmn hk hu
  exact ⟨l, z, by omega, hb, hr⟩

/-- Before two announcements of one key its removal lies between the admissions of their publishers;
so it lies between the announcements themselves, or it came while one of the two was on its way. -/
theorem remove_between_admissions {p q : ι} {r s : ContainerRecord} {o o' : Bool}
    {t t' : Option Thread} (hmn : m < n) (hm : run.Calls m p (.notify r o t))
    (hn : run.Calls n q (.notify s o' t')) (hk : r.key = s.key) :
    ∃ i j l z, i < m ∧ run.Admits i p r.key ∧ j < n ∧ run.Admits j q r.key ∧
      run.Calls l z (.remove r.key) ∧ ((i < l ∧ l < j) ∨ (j < l ∧ l < i)) ∧
      ((m < l ∧ l < n) ∨ (i < l ∧ l < m) ∨ (j < l ∧ l < m)) := by
  obtain ⟨hp, hsp⟩ := notify_cases hm
  obtain ⟨hq, hsq⟩ := notify_cases hn
  obtain ⟨i, hi, hai⟩ := exists_admits hp (Or.inr hsp)
  obtain ⟨j, hj, haj⟩ := exists_admits hq (Or.inr hsq)
  rw [← hk] at haj
  have hpq : p ≠ q := by
    rintro rfl
    have := eq_of_notify (by omega) hm hn
    omega
  have hij : i ≠ j := by
    rintro rfl
    exact hpq (hai.1.1.symm.trans haj.1.1)
  rcases Nat.lt_or_gt_of_ne hij with hlt | hgt
  · obtain ⟨l, z, hl, hb, hr⟩ := exists_remove_of_admits hlt hai haj
    have hlm : l ≠ m := by
      rintro rfl
      simpa using (calls_unique hm hr).2
    exact ⟨i, j, l, z, hi, hai, hj, haj, hr, Or.inl ⟨hl, hb⟩, by omega⟩
  · obtain ⟨l, z, hl, hb, hr⟩ := exists_remove_of_admits hgt haj hai
    exact ⟨i, j, l, z, hi, hai, hj, haj, hr, Or.inr ⟨hl, hb⟩, by omega⟩

/-- A removal overtakes the first publisher, so that the second one is admitted too. -/
def overtaken : Interleaving (Fin 3) where
  parties i := if i = 1 then .remover ("abc", .containerd) else .publisher { id := "abc" } none
  cache := {}
  passive := by simp
  schedule n := [0, 1, 2, 0, 0, 2].getD n 2

theorem remove_between_admissions_overtaken :
    4 < 6 ∧ overtaken.Calls 4 0 (.notify { id := "abc" } true none) ∧
      overtaken.Calls 6 2 (.notify { id := "abc" } true none) ∧
      ∃ i j l z, i < 4 ∧ overtaken.Admits i 0 ("abc", .containerd) ∧ j < 6 ∧
        overtaken.Admits j 2 ("abc", .containerd) ∧
        overtaken.Calls l z (.remove ("abc", .containerd)) ∧ ((i < l ∧ l < j) ∨ (j < l ∧ l < i)) ∧
        ((4 < l ∧ l < 6) ∨ (i < l ∧ l < 4) ∨ (j < l ∧ l < 4)) :=
  have hm : overtaken.Calls 4 0 (.notify { id := "abc" } true none) := ⟨rfl, rfl⟩
  have hn : overtaken.Calls 6 2 (.notify { id := "abc" } true none) := ⟨rfl, rfl⟩
  ⟨by decide, hm, hn, remove_between_admissions (by decide) hm hn rfl⟩

/-- Nobody removes the key between the two announcements. -/
theorem no_remove_between_announcements :
    overtaken.Calls 4 0 (.notify { id := "abc" } true none) ∧
      overtaken.Calls 6 2 (.notify { id := "abc" } true none) ∧
      ∀ l z, 4 < l → l < 6 → ¬overtaken.Calls l z (.remove ("abc", .containerd)) := by
  refine ⟨⟨rfl, rfl⟩, ⟨rfl, rfl⟩, ?_⟩
  intro l z hl hb hr
  obtain rfl : l = 5 := by omega
  have ha : overtaken.Calls 5 2 (.add { id := "abc" }) := ⟨rfl, rfl⟩
  simpa using (calls_unique ha hr).2

end Interleaving
end Attribution
