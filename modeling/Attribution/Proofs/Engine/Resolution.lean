import Attribution.Proofs.Containerd.Calls
import Attribution.Proofs.Engine.Outcome
import Attribution.Proofs.Engine.Readiness

namespace Attribution

/-- The thread shows an id, and the runtime lists one container for it. -/
structure Engine.Finds (engine : Engine) (service : RuntimeService) (network : Network)
    (thread : Thread) (id : String) (container : Wire.Container) : Prop where
  /-- The first of the cgroups that show an id at all shows this one. -/
  shown : ∃ earlier m later digits, thread.cgroups = earlier ++ m :: later ∧
    (∀ e ∈ earlier, ∀ other, ¬ShowsId e.path other) ∧ ShowsId m.path digits ∧
    id = String.ofList (digits.take shortIdLength)
  listed : ∃ client bytes response, engine.client = some client ∧
    client.replyTo service network (Client.fragmentRequest id) = .ok bytes ∧
    Wire.ListResponse.decode bytes = some response ∧ response.containers = [container]

/-- The path that the cgroups of a thread give for a controller. -/
inductive Thread.Gives (thread : Thread) (controller : String) : String → Prop where
  /-- It is that of the first entry of the controller. -/
  | own {before after : List Membership} {m : Membership} (split : thread.cgroups = before ++ m :: after)
      (first : ∀ e ∈ before, e.subsystem ≠ controller) (answers : m.subsystem = controller) :
      Gives thread controller m.path
  /-- If there is none, it is that of the first unified entry that has one. -/
  | unified {before after : List Membership} {m : Membership}
      (absent : ∀ e ∈ thread.cgroups, e.subsystem ≠ controller)
      (split : thread.cgroups = before ++ m :: after)
      (first : ∀ e ∈ before, e.subsystem = "" → e.path = "") (answers : m.subsystem = "")
      (placed : m.path ≠ "") : Gives thread controller m.path
  | nowhere (absent : ∀ e ∈ thread.cgroups, e.subsystem ≠ controller)
      (unplaced : ∀ e ∈ thread.cgroups, e.subsystem = "" → e.path = "") :
      Gives thread controller ""

/-- The key that limits are asked for under: the id, and the paths of the thread's own cgroups. -/
structure LimitsKey.IsOf (key : LimitsKey) (thread : Thread) (id : String) : Prop where
  containerId : key.containerId = id
  cpu : thread.Gives "cpu" key.cpu
  memory : thread.Gives "memory" key.memory
  cpuset : thread.Gives "cpuset" key.cpuset

/-- The attempt stored a new record and told all listeners. -/
structure Resolution.Stores (r : Resolution) (cache : Cache) (record : ContainerRecord) : Prop where
  extends_cache : r.cache = cache.extend record
  get? : ∀ key, r.cache.get? key = if key = record.key then some record else cache.get? key
  heard : r.hearings.map (·.listener) = cache.listeners.map (·.name)
  told : ∀ hearing ∈ r.hearings, hearing.record = record ∧ hearing.thread = some r.thread

/-- The attempt attributed the thread to a container. -/
structure Resolution.Attributes (r : Resolution) (limits : LimitsSource) (labelMax : Int)
    (cache : Cache) (thread : Thread) (id : String) (container : Wire.Container) : Prop where
  answer : r.answer = .ok true
  owner : r.thread = { thread with containerId := id }
  /-- Limits are asked for once, for the places that the thread's own cgroups give. -/
  asked : ∃ key : LimitsKey, key.IsOf thread id ∧ r.asked = [key]
  /-- A container that is stored, or that somebody reserved, is left as it is. -/
  known : cache.knows (id, .containerd) = true → r.cache = cache ∧ r.hearings = []
  fresh : cache.knows (id, .containerd) = false →
    ∃ key : LimitsKey, key.IsOf thread id ∧ ∃ found, limits key = .ok found ∧
      r.Stores cache
        { ContainerRecord.ofContainer container id labelMax with
          name := id, lookupState := .successful, limits := found }

theorem Membership.unifiedPath_cases (ms : List Membership) :
    (∃ before m after, ms = before ++ m :: after ∧ (∀ e ∈ before, e.subsystem = "" → e.path = "") ∧
      m.subsystem = "" ∧ m.path ≠ "" ∧ unifiedPath ms = m.path) ∨
    ((∀ e ∈ ms, e.subsystem = "" → e.path = "") ∧ unifiedPath ms = "") := by
  induction ms with
  | nil => exact .inr ⟨nofun, rfl⟩
  | cons m ms ih =>
    rw [unifiedPath]
    by_cases hm : m.subsystem = "" ∧ m.path ≠ ""
    · rw [if_pos hm]
      exact .inl ⟨[], m, ms, rfl, nofun, hm.1, hm.2, rfl⟩
    · have hplain : m.subsystem = "" → m.path = "" := by simpa using hm
      rw [if_neg hm]
      rcases ih with ⟨before, n, after, rfl, hfirst, hn, hpath, he⟩ | ⟨hall, he⟩
      · exact .inl ⟨m :: before, n, after, rfl, List.forall_mem_cons.mpr ⟨hplain, hfirst⟩, hn, hpath,
          he⟩
      · exact .inr ⟨List.forall_mem_cons.mpr ⟨hplain, hall⟩, he⟩

theorem Thread.gives_cgroup (thread : Thread) (controller : String) :
    thread.Gives controller (thread.cgroup controller) := by
  unfold cgroup Membership.pathOf
  cases hf : thread.cgroups.find? fun m => m.subsystem == controller with
  | some m =>
    obtain ⟨hm, before, after, split, hfirst⟩ := List.find?_eq_some_iff_append.mp hf
    exact .own split (fun e he => by simpa using hfirst e he) (eq_of_beq hm)
  | none =>
    have habsent : ∀ e ∈ thread.cgroups, e.subsystem ≠ controller := by
      simpa using List.find?_eq_none.mp hf
    rcases Membership.unifiedPath_cases thread.cgroups with
      ⟨before, m, after, split, hfirst, hm, hpath, he⟩ | ⟨hall, he⟩
    · simp only [he]
      exact .unified habsent split hfirst hm hpath
    · simp only [he]
      exact .nowhere habsent hall

theorem Engine.isOf_limitsKey (id : String) (thread : Thread) :
    (limitsKey id thread).IsOf thread id :=
  ⟨rfl, thread.gives_cgroup "cpu", thread.gives_cgroup "memory", thread.gives_cgroup "cpuset"⟩

namespace Engine

variable {engine : Engine} {service : RuntimeService} {limits : LimitsSource} {network : Network}
  {cache : Cache} {thread : Thread} {id : String} {container : Wire.Container}

theorem container?_eq_some_iff (hr : engine.Ready network) :
    engine.container? service network thread = some (id, container) ↔
      engine.Finds service network thread id container := by
  constructor
  · intro h
    obtain ⟨found, client, response, hm, hc, rfl, hl, hone⟩ := container?_eq_some h
    obtain ⟨earlier, m, later, digits, hcgroups, he, hd, rfl⟩ := CgroupLayout.shows_of_match? hm
    rw [Client.listByFragment_eq (hr client hc)] at hl
    obtain ⟨bytes, hb, hdecode⟩ := Client.readReply_eq_ok.mp hl
    exact ⟨⟨earlier, m, later, digits, hcgroups, he, hd, rfl⟩,
      client, bytes, response, hc, hb, hdecode, hone⟩
  · rintro ⟨⟨earlier, m, later, digits, hcgroups, he, hd, rfl⟩,
      client, bytes, response, hc, hb, hdecode, hone⟩
    have hm := CgroupLayout.match?_of_showsId hcgroups he hd
    have hl : (client.listByFragment service network
        (String.ofList (digits.take shortIdLength))).1 = .ok (.ok response) := by
      rw [Client.listByFragment_eq (hr client hc)]
      exact Client.readReply_eq_ok.mpr ⟨bytes, hb, hdecode⟩
    simp only [container?, hm, hc, hl, single, hone]

theorem offer?_of_container? (h : engine.container? service network thread = some (id, container))
    {found : Limits} (hl : limits (limitsKey id thread) = .ok found) :
    engine.offer? service limits network thread =
      some ({ ContainerRecord.ofContainer container id engine.settings.labelMaxLength with
        limits := found }, { thread with containerId := id }) := by
  have hk : limits (limitsKey id { thread with containerId := id }) = .ok found := hl
  simp [offer?, h, ContainerRecord.ofContainer, hk]

theorem asked_of_container? (h : engine.container? service network thread = some (id, container))
    {found : Limits} (hl : limits (limitsKey id thread) = .ok found) (cache : Cache) :
    (engine.resolve service limits network cache thread).asked = [limitsKey id thread] := by
  obtain ⟨network', hr⟩ := resolve_of_container? h limits cache
  have hk : limits (limitsKey id { thread with containerId := id }) = .ok found := hl
  simp [hr, complete, ContainerRecord.ofContainer, hk]
  rfl

theorem stores_of_heard {r : Resolution} {record : ContainerRecord}
    (hd : ∀ listener ∈ cache.listeners, listener.Discreet) (hn : cache.get? record.key = none)
    (hc : r.cache = cache.extend record)
    (hh : r.hearings = ((cache.extend record).announce record true (some r.thread)).2) :
    r.Stores cache record := by
  have hget := Cache.get?_extend hn
  have hd' : ∀ listener ∈ (cache.extend record).listeners, listener.Discreet := hd
  have hstored : (cache.extend record).get? record.key = some record := by rw [hget, if_pos rfl]
  rw [Cache.announce_of_discreet hd' hstored] at hh
  refine ⟨hc, fun key => by rw [hc, hget], ?_, ?_⟩
  · rw [hh, List.map_map]
    exact List.map_congr_left fun listener _ => (Announcement.tell_hearing _ _ listener).1
  · intro hearing hm
    rw [hh] at hm
    obtain ⟨listener, _, rfl⟩ := List.mem_map.mp hm
    exact (Announcement.tell_hearing _ _ listener).2

/-- What was found is attributed, and stored if it is new to the cache. -/
theorem attributes_of_container? (hd : ∀ listener ∈ cache.listeners, listener.Discreet)
    (hc : engine.container? service network thread = some (id, container)) {found : Limits}
    (hl : limits (limitsKey id thread) = .ok found) :
    (engine.resolve service limits network cache thread).Attributes limits
      engine.settings.labelMaxLength cache thread id container := by
  have ho := offer?_of_container? hc hl
  obtain ⟨ha, ht, hcase⟩ := outcome_of_offer? hd ho
  have hkey := isOf_limitsKey id thread
  refine ⟨ha, ht, ⟨_, hkey, asked_of_container? hc hl cache⟩, fun hk => ?_,
    fun hk => ⟨_, hkey, found, hl, ?_⟩⟩
  · rcases hcase with ⟨_, hsame, hsilent⟩ | ⟨hn, _⟩
    · exact ⟨hsame, hsilent⟩
    · exact absurd (hk.symm.trans hn) (by decide)
  · rcases hcase with ⟨hn, _⟩ | ⟨_, hstored, hheard⟩
    · exact absurd (hk.symm.trans hn) (by decide)
    · rw [← ht] at hheard
      exact stores_of_heard hd (Cache.get?_eq_none_of_knows hk) hstored hheard

/-- An attempt of an engine that can ask its runtime comes to an answer if its limits can be had. It
succeeds if there is a container to find, and changes nothing if there is none. -/
theorem resolve_correct (hs : Decodable service) (hr : engine.Ready network)
    (hd : ∀ listener ∈ cache.listeners, listener.Discreet)
    (hl : ∀ key, ∃ found, limits key = .ok found) :
    let r := engine.resolve service limits network cache thread
    (r.answer = .ok true ∨ r.answer = .ok false) ∧
      (r.answer = .ok true ↔ ∃ id container, engine.Finds service network thread id container) ∧
      (r.answer = .ok false → r.thread = thread ∧ r.cache = cache ∧ r.hearings = []) ∧
      ∀ id container, engine.Finds service network thread id container →
        r.Attributes limits engine.settings.labelMaxLength cache thread id container := by
  intro r
  have hfinds : ∀ id container, engine.Finds service network thread id container →
      r.Attributes limits engine.settings.labelMaxLength cache thread id container := by
    intro id container hf
    obtain ⟨found, hfound⟩ := hl (limitsKey id thread)
    exact attributes_of_container? hd ((container?_eq_some_iff hr).mpr hf) hfound
  obtain ⟨answer, ha⟩ : ∃ answer, r.answer = .ok answer :=
    (resolve_succeeds hs hr fun id => hl _).1
  cases hc : engine.container? service network thread with
  | none =>
    obtain ⟨hne, hsame⟩ :
        r.answer ≠ .ok true ∧ r.thread = thread ∧ r.cache = cache ∧ r.hearings = [] :=
      resolve_of_container?_none hc
    have hnone : ¬∃ id container, engine.Finds service network thread id container := by
      rintro ⟨id, container, hf⟩
      rw [(container?_eq_some_iff hr).mpr hf] at hc
      cases hc
    have hfalse : r.answer = .ok false := by
      cases answer with
      | false => exact ha
      | true => exact absurd ha hne
    exact ⟨.inr hfalse, iff_of_false hne hnone, fun _ => hsame, hfinds⟩
  | some shown =>
    obtain ⟨id, container⟩ := shown
    have hf := (container?_eq_some_iff hr).mp hc
    have htrue : r.answer = .ok true := (hfinds id container hf).answer
    refine ⟨.inl htrue, iff_of_true htrue ⟨id, container, hf⟩, fun hfalse => ?_, hfinds⟩
    rw [htrue] at hfalse
    cases hfalse

end Engine

namespace Attributed

def digits : String := "0123456789abcdef0123456789abcdef0123456789abcdef0123456789abcdef"

/-- The second of the cgroups is the first that shows an id. -/
def thread : Thread :=
  { tid := 7, cgroups := [⟨"pids", "/init.scope"⟩, ⟨"cpu", "/default/" ++ digits⟩] }

def channel : Channel := ⟨0, "unix:///run/containerd.sock", Client.channelOptions⟩

def network : Network := { channels := ⟨1, [channel]⟩ }

def engine : Engine := ⟨{}, some ⟨"/run/containerd.sock", channel, "default", 1000, .bound⟩⟩

def reply : Wire.Bytes := Wire.ListResponse.encode { containers := [{ id := digits }] }

def runtime : RuntimeService := fun _ _ _ => .ok reply

def limits : LimitsSource := fun _ => .ok { memory := 512 }

/-- Somebody else holds a key, and one of the listeners fails. -/
def cache : Cache :=
  { pending := [("fedcba987654", .containerd)], listeners := [.asking "gate", .failing "late"] }

theorem decode_reply :
    Wire.ListResponse.decode reply = some { containers := [{ id := digits }] } := by decide +kernel

theorem runtime_decodable : Decodable runtime := by
  intro target earlier request bytes h
  obtain rfl := Except.ok.inj h
  exact ⟨_, decode_reply⟩

theorem engine_ready : engine.Ready network := by
  intro client h
  obtain rfl := Option.some.inj h
  exact ⟨by decide, by decide +kernel⟩

theorem listeners_discreet : ∀ listener ∈ cache.listeners, listener.Discreet := by
  intro listener h
  rcases List.mem_pair.mp h with rfl | rfl
  · exact Listener.asking_discreet "gate"
  · exact fun _ _ _ _ => rfl

theorem finds : engine.Finds runtime network thread "0123456789ab" { id := digits } := by
  rw [← Engine.container?_eq_some_iff engine_ready]
  decide +kernel

theorem resolve_attributes :
    Decodable runtime ∧ engine.Ready network ∧
      (∀ listener ∈ cache.listeners, listener.Discreet) ∧
      (∀ key, ∃ found, limits key = .ok found) ∧
      cache.knows ("0123456789ab", .containerd) = false ∧
      (engine.resolve runtime limits network cache thread).Attributes limits 100 cache thread
        "0123456789ab" { id := digits } := by
  have hl : ∀ key, ∃ found, limits key = .ok found := fun _ => ⟨_, rfl⟩
  exact ⟨runtime_decodable, engine_ready, listeners_discreet, hl, by decide +kernel,
    (Engine.resolve_correct runtime_decodable engine_ready listeners_discreet hl).2.2.2 _ _ finds⟩

end Attributed
end Attribution
