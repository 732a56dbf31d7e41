import Attribution.Engine.Basic
import Attribution.Proofs.Cache.Call

namespace Attribution

namespace Engine

variable {engine : Engine} {service : RuntimeService} {limits : LimitsSource} {network : Network}
  {cache : Cache} {thread : Thread}

/-- The id that the cgroups of a thread show, and the one container that the runtime has for it. -/
def container? (engine : Engine) (service : RuntimeService) (network : Network) (thread : Thread) :
    Option (String × Wire.Container) :=
  match CgroupLayout.match? containerdLayout thread.cgroups, engine.client with
  | some found, some client =>
    match (client.listByFragment service network found.containerId).1 with
    | .ok reply =>
      match single found.containerId reply with
      | .ok container => some (found.containerId, container)
      | .error _ => none
    | .error _ => none
  | _, _ => none

theorem single_eq_ok {id : String} {reply : Except RpcError Wire.ListResponse}
    {container : Wire.Container} (h : single id reply = .ok container) :
    ∃ response, reply = .ok response ∧ response.containers = [container] := by
  cases reply with
  | error e => simp [single] at h
  | ok response =>
    unfold single at h
    simp only at h
    split at h
    next => simp at h
    next c hc =>
      obtain rfl := Except.ok.inj h
      exact ⟨response, rfl, hc⟩
    next => simp at h

theorem container?_eq_some {id : String} {container : Wire.Container}
    (h : engine.container? service network thread = some (id, container)) :
    ∃ found, ∃ client : Client, ∃ response,
      CgroupLayout.match? containerdLayout thread.cgroups = some found ∧
      engine.client = some client ∧ id = found.containerId ∧
      (client.listByFragment service network id).1 = .ok (.ok response) ∧
      response.containers = [container] := by
  unfold container? at h
  split at h
  next found client hm hc =>
    split at h
    next reply hr =>
      split at h
      next c hs =>
        obtain ⟨rfl, rfl⟩ := Prod.mk.inj (Option.some.inj h)
        obtain ⟨response, rfl, hone⟩ := single_eq_ok hs
        exact ⟨found, client, response, hm, hc, rfl, hr, hone⟩
      next => simp at h
    next => simp at h
  next => simp at h

theorem resolve_of_container? {id : String} {container : Wire.Container}
    (h : engine.container? service network thread = some (id, container)) (limits : LimitsSource)
    (cache : Cache) :
    ∃ network', engine.resolve service limits network cache thread =
      engine.complete limits network' cache thread id container := by
  obtain ⟨found, client, response, hm, hc, rfl, hl, hone⟩ := container?_eq_some h
  refine ⟨(client.listByFragment service network found.containerId).2, ?_⟩
  have hr : client.listByFragment service network found.containerId =
      (.ok (.ok response), (client.listByFragment service network found.containerId).2) := by
    rw [← hl]
  have hs : single found.containerId (.ok response) = .ok container := by simp [single, hone]
  unfold resolve
  simp only [hm, hc]
  rw [hr]
  simp only [hs]

theorem resolve_of_container?_none (h : engine.container? service network thread = none) :
    let r := engine.resolve service limits network cache thread
    r.answer ≠ .ok true ∧ r.thread = thread ∧ r.cache = cache ∧ r.hearings = [] := by
  unfold container? at h
  split at h
  next found client hm hc =>
    unfold resolve
    simp only [hm, hc]
    split
    next fault network' hl => simp
    next reply network' hl =>
      simp only [hl] at h
      split
      next => simp
      next c hs => simp [hs] at h
  next hn =>
    unfold resolve
    split
    next found client hm hc => exact (hn found client hm hc).elim
    next => simp

/-- The record and the thread with which an attempt comes to the cache. -/
def offer? (engine : Engine) (service : RuntimeService) (limits : LimitsSource) (network : Network)
    (thread : Thread) : Option (ContainerRecord × Thread) :=
  match engine.container? service network thread with
  | none => none
  | some (id, container) =>
    let record := ContainerRecord.ofContainer container id engine.settings.labelMaxLength
    let thread := { thread with containerId := id }
    match limits (limitsKey record.id thread) with
    | .error _ => none
    | .ok limits => some ({ record with limits }, thread)

theorem offer?_eq_some {record : ContainerRecord} {owner : Thread}
    (h : engine.offer? service limits network thread = some (record, owner)) :
    ∃ id container found, engine.container? service network thread = some (id, container) ∧
      owner = { thread with containerId := id } ∧ limits (limitsKey id owner) = .ok found ∧
      record =
        { ContainerRecord.ofContainer container id engine.settings.labelMaxLength with
          limits := found } := by
  unfold offer? at h
  split at h
  next => simp at h
  next id container hc =>
    simp only at h
    split at h
    next => simp at h
    next found hl =>
      obtain ⟨rfl, rfl⟩ := Prod.mk.inj (Option.some.inj h)
      exact ⟨id, container, found, hc, rfl, hl, rfl⟩

theorem resolve_of_offer? {record : ContainerRecord} {owner : Thread}
    (h : engine.offer? service limits network thread = some (record, owner)) (cache : Cache) :
    (engine.resolve service limits network cache thread).answer = .ok true ∧
      (engine.resolve service limits network cache thread).cache = (publish cache record owner).1 ∧
      (engine.resolve service limits network cache thread).hearings =
        (publish cache record owner).2.2 := by
  obtain ⟨id, container, found, hc, rfl, hl, rfl⟩ := offer?_eq_some h
  obtain ⟨network', hr⟩ := resolve_of_container? hc limits cache
  have hk : limits (limitsKey (ContainerRecord.ofContainer container id
      engine.settings.labelMaxLength).id { thread with containerId := id }) = .ok found := hl
  rw [hr, complete]
  simp [hk]

theorem resolve_thread_of_offer? {record : ContainerRecord} {owner : Thread}
    (h : engine.offer? service limits network thread = some (record, owner)) (cache : Cache) :
    (engine.resolve service limits network cache thread).thread =
      (publish cache record owner).2.1 := by
  obtain ⟨id, container, found, hc, rfl, hl, rfl⟩ := offer?_eq_some h
  obtain ⟨network', hr⟩ := resolve_of_container? hc limits cache
  have hk : limits (limitsKey (ContainerRecord.ofContainer container id
      engine.settings.labelMaxLength).id { thread with containerId := id }) = .ok found := hl
  rw [hr, complete]
  simp [hk]

theorem resolve_of_offer?_none (h : engine.offer? service limits network thread = none) :
    (engine.resolve service limits network cache thread).answer ≠ .ok true ∧
      (engine.resolve service limits network cache thread).cache = cache ∧
      (engine.resolve service limits network cache thread).hearings = [] := by
  unfold offer? at h
  split at h
  next hc =>
    obtain ⟨ha, _, hcache, hh⟩ := resolve_of_container?_none hc
    exact ⟨ha, hcache, hh⟩
  next id container hc =>
    obtain ⟨network', hr⟩ := resolve_of_container? hc limits cache
    simp only at h
    split at h
    next fault hl =>
      rw [hr, complete]
      simp [hl]
    next => simp at h

theorem type_of_offer? {record : ContainerRecord} {owner : Thread}
    (h : engine.offer? service limits network thread = some (record, owner)) :
    record.type = .containerd := by
  obtain ⟨_, _, _, _, _, _, rfl⟩ := offer?_eq_some h
  rfl

/-- A record as an engine publishes it. -/
def asPublished (record : ContainerRecord) : ContainerRecord :=
  { record with name := record.id, lookupState := .successful }

/-- The calls with which an engine publishes a record. -/
def publication (cache : Cache) (record : ContainerRecord) (thread : Thread) : List CacheCall :=
  if (cache.shouldLookup (record.id, .containerd)).1 then
    [.shouldLookup (record.id, .containerd), .add (asPublished record),
      .notify (asPublished record) true (some (thread.claim (asPublished record)))]
  else [.shouldLookup (record.id, .containerd)]

theorem publish_eq_publication (cache : Cache) (record : ContainerRecord) (thread : Thread) :
    (publish cache record thread).1 = cache.run (publication cache record thread) ∧
      (publish cache record thread).2.2 = cache.heard (publication cache record thread) := by
  unfold publish publication
  split
  next reserved hg =>
    simp [hg, Cache.run, Cache.heard, Cache.perform]
  next reserved hg =>
    have hh : (reserved.add (asPublished record)).holds (asPublished record) true = true := by
      simp [Cache.holds, Cache.get?_add]
    simp only [hg, if_true, Cache.run, Cache.heard, Cache.perform, hh, List.nil_append,
      List.append_nil]
    exact ⟨rfl, rfl⟩

theorem fullId_of_mem_publish {cache : Cache} {record : ContainerRecord} {owner : Thread}
    {hearing : Hearing} (h : hearing ∈ (publish cache record owner).2.2) :
    hearing.record.fullId = record.fullId := by
  unfold publish at h
  split at h
  next => simp at h
  next reserved hg =>
    have hh : hearing ∈ ((reserved.add (asPublished record)).announce (asPublished record) true
        (some (owner.claim (asPublished record)))).2 := h
    have hf := Cache.fullId_of_mem_announce hh
    exact hf

end Engine
end Attribution
