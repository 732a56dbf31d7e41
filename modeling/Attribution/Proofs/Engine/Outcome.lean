import Attribution.Proofs.Cgroup.Layout
import Attribution.Proofs.Engine.Publication

namespace Attribution

theorem Published.key_eq {record : ContainerRecord} (h : Published record) :
    record.key = (record.id, .containerd) := by
  rw [← h.type]
  rfl

namespace Cache

/-- The cache with one more record behind the others. -/
def extend (cache : Cache) (record : ContainerRecord) : Cache :=
  { cache with records := cache.records ++ [(record.key, record)] }

variable {cache : Cache} {record : ContainerRecord} {key : ContainerKey}

theorem get?_eq_none_of_knows (h : cache.knows key = false) : cache.get? key = none := by
  have hs := (Bool.or_eq_false_iff.mp h).1
  simpa using hs

theorem shouldLookup_of_knows (h : cache.knows key = true) :
    cache.shouldLookup key = (false, cache) := by
  have hk : ((cache.get? key).isSome || cache.isPending key) = true := h
  simp [shouldLookup, hk]

theorem shouldLookup_of_not_knows (h : cache.knows key = false) :
    cache.shouldLookup key = (true, { cache with pending := key :: cache.pending }) := by
  have hk : ((cache.get? key).isSome || cache.isPending key) = false := h
  simp [shouldLookup, hk]

/-- Adding a record that was admitted right before releases its key and leaves nothing else. -/
theorem add_reserved (h : cache.knows record.key = false) :
    ({ cache with pending := record.key :: cache.pending } : Cache).add record =
      cache.extend record := by
  have hrecords : cache.records.set record.key record = cache.records ++ [(record.key, record)] :=
    Assoc.set_eq_append (get?_eq_none_of_knows h) record
  have hpending : (record.key :: cache.pending).filter (· != record.key) = cache.pending := by
    have hn : record.key ∉ cache.pending := by
      simpa [isPending] using (Bool.or_eq_false_iff.mp h).2
    have hf : cache.pending.filter (· != record.key) = cache.pending := by
      rw [List.filter_eq_self]
      intro k hk
      simpa using ne_of_mem_of_not_mem hk hn
    rw [List.filter_cons_of_neg (by simp), hf]
  simp [add, extend, hrecords, hpending]

theorem get?_extend (h : cache.get? record.key = none) (key : ContainerKey) :
    (cache.extend record).get? key = if key = record.key then some record else cache.get? key := by
  have hs : (cache.extend record).records = cache.records.set record.key record :=
    (Assoc.set_eq_append h record).symm
  rw [get?, hs]
  exact Assoc.find?_set cache.records record.key key record

end Cache

namespace Engine

variable {engine : Engine} {service : RuntimeService} {limits : LimitsSource} {network : Network}
  {cache : Cache} {thread owner : Thread} {record : ContainerRecord}

theorem publish_of_knows (h : cache.knows (record.id, .containerd) = true) (owner : Thread) :
    publish cache record owner = (cache, owner, []) := by
  simp [publish, Cache.shouldLookup_of_knows h]

theorem publish_of_not_knows (hd : ∀ listener ∈ cache.listeners, listener.Discreet)
    (ht : record.type = .containerd) (h : cache.knows (record.id, .containerd) = false)
    (ho : owner.containerId ≠ "") :
    publish cache record owner =
      (cache.extend (asPublished record), owner,
        ((cache.extend (asPublished record)).announce (asPublished record) true (some owner)).2) := by
  have hk : (asPublished record).key = (record.id, .containerd) := (published_asPublished ht).key_eq
  have hfresh : cache.knows (asPublished record).key = false := hk ▸ h
  have hadd := Cache.add_reserved hfresh
  rw [hk] at hadd
  have hclaim : owner.claim (asPublished record) = owner := by simp [Thread.claim, ho]
  have hstored : (cache.extend (asPublished record)).get? (asPublished record).key =
      some (asPublished record) := by
    rw [Cache.get?_extend (Cache.get?_eq_none_of_knows hfresh), if_pos rfl]
  have hpublish : publish cache record owner =
      let told := (({ cache with pending := (record.id, .containerd) :: cache.pending } : Cache).add
        (asPublished record)).announce (asPublished record) true
          (some (owner.claim (asPublished record)))
      (told.1, owner.claim (asPublished record), told.2) := by
    simp only [publish, Cache.shouldLookup_of_not_knows h]
    rfl
  have hq : ∀ listener ∈ (cache.extend (asPublished record)).listeners, listener.Discreet := hd
  simp only [hpublish, hadd, hclaim, Cache.announce_of_discreet hq hstored]

end Engine

/-- What comes of an attempt on a cache whose listeners only listen. -/
inductive Outcome (limits : LimitsSource) (cache : Cache) (thread : Thread) (r : Resolution) : Prop
  | failed (answer : r.answer ≠ .ok true) (same : r.cache = cache) (silent : r.hearings = [])
  | known (id : String) (short : IsShortId id) (answer : r.answer = .ok true)
    (owner : r.thread = { thread with containerId := id })
    (knows : cache.knows (id, .containerd) = true) (same : r.cache = cache)
    (silent : r.hearings = [])
  | published (record : ContainerRecord) (short : IsShortId record.id) (answer : r.answer = .ok true)
    (owner : r.thread = { thread with containerId := record.id }) (made : Published record)
    (limited : ∃ key, limits key = .ok record.limits) (fresh : cache.knows record.key = false)
    (stored : r.cache = cache.extend record)
    (heard : r.hearings = ((cache.extend record).announce record true (some r.thread)).2)

theorem Outcome.listeners_eq {limits : LimitsSource} {cache : Cache} {thread : Thread}
    {r : Resolution} (h : Outcome limits cache thread r) : r.cache.listeners = cache.listeners := by
  cases h with
  | failed _ same _ => rw [same]
  | known _ _ _ _ _ same _ => rw [same]
  | published _ _ _ _ _ _ _ stored _ =>
    rw [stored]
    rfl

namespace Engine

variable {engine : Engine} {service : RuntimeService} {limits : LimitsSource} {network : Network}
  {cache : Cache} {thread owner : Thread} {record : ContainerRecord}

theorem isShortId_of_offer?
    (h : engine.offer? service limits network thread = some (record, owner)) :
    IsShortId record.id := by
  obtain ⟨id, container, _, hc, _, _, rfl⟩ := offer?_eq_some h
  obtain ⟨found, _, _, hm, _, rfl, _⟩ := container?_eq_some hc
  exact CgroupLayout.isShortId_of_match? hm

theorem limits_of_offer? (h : engine.offer? service limits network thread = some (record, owner)) :
    limits (limitsKey record.id owner) = .ok record.limits := by
  obtain ⟨_, _, _, _, _, hl, rfl⟩ := offer?_eq_some h
  exact hl

theorem owner_of_offer? (h : engine.offer? service limits network thread = some (record, owner)) :
    owner = { thread with containerId := record.id } := by
  obtain ⟨_, _, _, _, rfl, _, rfl⟩ := offer?_eq_some h
  rfl

theorem outcome_of_offer? (hd : ∀ listener ∈ cache.listeners, listener.Discreet)
    (h : engine.offer? service limits network thread = some (record, owner)) :
    let r := engine.resolve service limits network cache thread
    r.answer = .ok true ∧ r.thread = owner ∧
      ((cache.knows (record.id, .containerd) = true ∧ r.cache = cache ∧ r.hearings = []) ∨
        (cache.knows (record.id, .containerd) = false ∧
          r.cache = cache.extend (asPublished record) ∧
          r.hearings = ((cache.extend (asPublished record)).announce (asPublished record) true
            (some owner)).2)) := by
  intro r
  obtain ⟨ha, hc, hh⟩ := resolve_of_offer? h cache
  have ht := resolve_thread_of_offer? h cache
  have ho : owner.containerId ≠ "" := by
    rw [owner_of_offer? h]
    exact (isShortId_of_offer? h).ne_empty
  by_cases hk : cache.knows (record.id, .containerd) = true
  · rw [publish_of_knows hk] at hc hh ht
    exact ⟨ha, ht, Or.inl ⟨hk, hc, hh⟩⟩
  · have hn : cache.knows (record.id, .containerd) = false := by simpa using hk
    rw [publish_of_not_knows hd (type_of_offer? h) hn ho] at hc hh ht
    exact ⟨ha, ht, Or.inr ⟨hn, hc, hh⟩⟩

theorem resolve_outcome (hp : ∀ listener ∈ cache.listeners, listener.Passive) :
    Outcome limits cache thread (engine.resolve service limits network cache thread) := by
  cases ho : engine.offer? service limits network thread with
  | none =>
    obtain ⟨ha, hc, hh⟩ := resolve_of_offer?_none ho
    exact .failed ha hc hh
  | some offer =>
    obtain ⟨record, owner⟩ := offer
    obtain ⟨ha, ht, hcase⟩ := outcome_of_offer? (fun l hl => (hp l hl).discreet) ho
    have hs := isShortId_of_offer? ho
    have hw := ht.trans (owner_of_offer? ho)
    rcases hcase with ⟨hk, hc, hh⟩ | ⟨hn, hc, hh⟩
    · exact .known record.id hs ha hw hk hc hh
    · have hmade := published_asPublished (type_of_offer? ho)
      have hkey : (asPublished record).key = (record.id, .containerd) := hmade.key_eq
      have hl : limits (limitsKey record.id owner) = .ok (asPublished record).limits :=
        limits_of_offer? ho
      rw [← ht] at hh
      exact .published (asPublished record) hs ha hw hmade ⟨_, hl⟩ (hkey ▸ hn) hc hh

end Engine
end Attribution
