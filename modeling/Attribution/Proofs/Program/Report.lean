import Attribution.Proofs.Cgroup.Limits
import Attribution.Proofs.Program.Telling
import Mathlib.Data.List.Sort

namespace Attribution

/-- The numbers of all that a visit may announce can be written. -/
structure Writable (limits : LimitsSource) (vs : List Visit) : Prop where
  threads : ∀ v ∈ vs, Text.writable v.thread.tid = true ∧ Text.writable v.thread.pid = true
  limits : ∀ key l, limits key = .ok l → l.numbers.all Text.writable = true

theorem Writable.tail {limits : LimitsSource} {v : Visit} {vs : List Visit}
    (h : Writable limits (v :: vs)) : Writable limits vs :=
  ⟨fun u hu => h.threads u (List.mem_cons_of_mem v hu), h.limits⟩

theorem Writable.announceable {limits : LimitsSource} {v : Visit} {vs : List Visit}
    (h : Writable limits (v :: vs)) {record : ContainerRecord}
    (hl : ∃ key, limits key = .ok record.limits) :
    Event.announceable record (some v.thread) = true := by
  obtain ⟨key, hlimits⟩ := hl
  obtain ⟨htid, hpid⟩ := h.threads v (by simp)
  have hn : (Event.build "" record (some v.thread)).numbers =
      v.thread.tid :: v.thread.pid :: record.limits.numbers := rfl
  rw [Event.announceable, hn, List.all_cons, List.all_cons, htid, hpid, h.limits key _ hlimits]
  rfl

/-- The containers that processes were attributed to, one for each process. -/
def foundIds (vs : List Visit) : List String := (vs.filter Visit.resolved).map Visit.containerId

/-- The first visit that found the container of the event found it for the process of the event. -/
def IsFirst (vs : List Visit) (e : Event) : Prop :=
  ∃ before v after, vs = before ++ v :: after ∧ v.resolved = true ∧
    v.containerId = e.container.id ∧ v.IsShown e ∧
    ∀ u ∈ before, u.resolved = true → u.containerId ≠ e.container.id

section

variable {limits : LimitsSource} {hostname : String} {cache : Cache} {vs : List Visit} {e : Event}

theorem containerKey_beq (id other : String) :
    (containerKey id == containerKey other) = (id == other) := by
  by_cases h : id = other
  · simp [h]
  · simp [containerKey, h]

/-- An event is about a container that was not known, comes from the visit that found it first, and
can be sent. -/
theorem Chain.of_mem_events (h : Chain limits cache vs)
    (hl : cache.listeners = [hostname].map Listener.emitting) (he : e ∈ vs.flatMap Visit.events) :
    cache.knows (containerKey e.container.id) = false ∧ IsFirst vs e ∧ e.Sendable := by
  induction vs generalizing cache with
  | nil => simp at he
  | cons v vs ih =>
    obtain ⟨ht, hc, hn⟩ := h.telling_cons hl
    rw [List.flatMap_cons] at he
    rcases List.mem_append.mp he with hnow | hlater
    · obtain ⟨hr, hu, hid, hthread, hsent⟩ := ht.of_mem_events hnow
      exact ⟨hid ▸ hu, ⟨[], v, vs, rfl, hr, hid.symm, hthread, by simp⟩, hsent⟩
    · obtain ⟨hu, ⟨before, u, after, rfl, hr, hid, hthread, hfirst⟩, hsent⟩ := ih hc hn hlater
      refine ⟨?_, ⟨v :: before, u, after, rfl, hr, hid, hthread, ?_⟩, hsent⟩
      · by_contra hk
        have hkept := ht.knows_mono (by simpa using hk)
        simp [hu] at hkept
      · intro w hw hwr hwid
        rcases List.mem_cons.mp hw with rfl | hw
        · have hknown := ht.knows_of_resolved hwr
          rw [hwid, hu] at hknown
          cases hknown
        · exact hfirst w hw hwr hwid

theorem Chain.nodup_ids (h : Chain limits cache vs)
    (hl : cache.listeners = [hostname].map Listener.emitting) (hw : Writable limits vs) :
    ((vs.flatMap Visit.events).map (·.container.id)).Nodup := by
  induction vs generalizing cache with
  | nil => exact List.nodup_nil
  | cons v vs ih =>
    obtain ⟨ht, hc, hn⟩ := h.telling_cons hl
    have hlater := ih hc hn hw.tail
    have hknown := ht.knows_of_resolved
    rw [List.flatMap_cons]
    cases ht with
    | failed _ _ events => rwa [events]
    | again _ _ _ events => rwa [events]
    | fresh record key short resolved limited unknown stored events =>
      rw [if_pos (hw.announceable limited), List.map_singleton] at events
      have hid : (Event.build hostname record (some v.thread)).container.id = v.containerId :=
        (Event.id_build short hostname _).trans (congrArg Prod.fst key)
      rw [events, List.singleton_append, List.map_cons, List.nodup_cons]
      refine ⟨fun hm => ?_, hlater⟩
      obtain ⟨e, he, hsame⟩ := List.mem_map.mp hm
      have hunknown := (hc.of_mem_events hn he).1
      rw [hsame, hid, hknown resolved] at hunknown
      cases hunknown

/-- The containers of the events are those that were found and not known before, each at the place
where it was found first. The cache has grown by as many. -/
theorem Chain.ids_eq (h : Chain limits cache vs)
    (hl : cache.listeners = [hostname].map Listener.emitting) (hw : Writable limits vs) :
    (vs.flatMap Visit.events).map (·.container.id) =
        ((foundIds vs).filter fun id => !cache.knows (containerKey id)).eraseDups ∧
      (cache.afterVisits vs).size = cache.size + (vs.flatMap Visit.events).length := by
  induction vs generalizing cache with
  | nil => exact ⟨rfl, rfl⟩
  | cons v vs ih =>
    obtain ⟨ht, hc, hn⟩ := h.telling_cons hl
    obtain ⟨hids, hsize⟩ := ih hc hn hw.tail
    have hafter : cache.afterVisits (v :: vs) = v.resolution.cache.afterVisits vs := rfl
    rw [List.flatMap_cons, hafter, hsize, List.map_append, hids]
    cases ht with
    | failed resolved same events => simp [events, same, foundIds, resolved]
    | again resolved known same events => simp [events, same, foundIds, resolved, known]
    | fresh record key short resolved limited unknown stored events =>
      rw [if_pos (hw.announceable limited), List.map_singleton] at events
      have hid : (Event.build hostname record (some v.thread)).container.id = v.containerId :=
        (Event.id_build short hostname _).trans (congrArg Prod.fst key)
      have hfound : foundIds (v :: vs) = v.containerId :: foundIds vs := by
        simp [foundIds, resolved]
      have hknows : ∀ id, (!v.resolution.cache.knows (containerKey id)) =
          ((!id == v.containerId) && !cache.knows (containerKey id)) := by
        intro id
        rw [stored, Cache.knows_extend (key ▸ unknown), key, containerKey_beq, Bool.not_or,
          Bool.and_comm]
      have hsize : v.resolution.cache.size = cache.size + 1 := by
        simp [stored, Cache.extend, Cache.size]
      refine ⟨?_, ?_⟩
      · rw [hfound, List.filter_cons_of_pos (by simp [unknown]), List.eraseDups_cons,
          List.filter_filter, events, List.map_singleton, List.singleton_append, hid]
        simp only [hknows]
      · rw [events, hsize, List.length_append, List.length_singleton, Nat.add_assoc]

end

namespace Program

variable {world : Surroundings} {session : Session} {args : List String}

theorem allPids_sorted {root : String} {pids : List Int} {log : List LogLine}
    (h : allPids world.fs root = .ok (pids, log)) : pids.Pairwise (· ≤ ·) := by
  unfold allPids at h
  cases hn : world.fs.names root with
  | error fault => simp [hn, bind, Except.bind] at h
  | ok listing =>
    cases listing with
    | error e =>
      obtain ⟨rfl, _⟩ : [] = pids ∧ _ = log := by
        simpa [hn, bind, Except.bind, pure, Except.pure] using h
      exact List.Pairwise.nil
    | ok names =>
      cases hm : (names.filterMap pidOf?).mapM id with
      | error fault => simp [hn, hm, bind, Except.bind] at h
      | ok found =>
        obtain ⟨rfl, _⟩ : found.mergeSort (· ≤ ·) = pids ∧ [] = log := by
          simpa [hn, hm, bind, Except.bind, pure, Except.pure] using h
        exact List.pairwise_mergeSort' (· ≤ ·) found

theorem processes_sorted {pids : List Int} (h : CommandLine.parse args = .scan pids true) :
    (processes world args).Pairwise (· ≤ ·) := by
  unfold processes
  simp only [h, ↓reduceIte]
  split
  next hl => exact allPids_sorted hl
  next => exact List.Pairwise.nil

/-- The lines that end the log of a run: how many processes it visited, how many of them it
attributed, and how many containers are known after it. -/
def countLines (vs : List Visit) (found : Nat) : List LogLine :=
  [⟨20, "", "Processes checked  : " ++ toString vs.length, none⟩,
    ⟨20, "", "Processes resolved : " ++ toString (vs.countP Visit.resolved), none⟩,
    ⟨20, "", "Containers found   : " ++ toString found, none⟩]

/-- What a run reports of its visits. -/
structure Report (world : Surroundings) (args : List String) (vs : List Visit) (run : Run) :
    Prop where
  visited : vs.map (·.thread.pid) = processes world args
  counted : run.events.length = run.session.cache.size
  sent : ∀ e ∈ run.events, ∀ stamp, ∃ text, e.line stamp = .ok text ∧ e.IsLine text
  ids : run.events.map (·.container.id) = (foundIds vs).eraseDups
  distinct : (run.events.map (·.container.id)).Nodup
  first : ∀ e ∈ run.events, IsFirst vs e
  /-- Among all processes of the host it is the lowest of a container that announces it. -/
  lowest : ∀ pids, CommandLine.parse args = .scan pids true → ∀ e ∈ run.events,
    ∃ v ∈ vs, v.resolved = true ∧ v.containerId = e.container.id ∧ v.IsShown e ∧
      ∀ u ∈ vs, u.resolved = true → u.containerId = e.container.id → v.thread.pid ≤ u.thread.pid
  logged : ∃ earlier, run.log = (earlier ++ countLines vs run.session.cache.size).filter
    (Log.passes (Log.levelOfName world.settings.logLevel))
  /-- The two levels that let these lines through. -/
  written : Log.levelOfName world.settings.logLevel ∈ [10, 20] →
    countLines vs run.session.cache.size <:+ run.log

theorem exists_lowest {vs : List Visit} {e : Event} (h : IsFirst vs e)
    (hs : (vs.map (·.thread.pid)).Pairwise (· ≤ ·)) :
    ∃ v ∈ vs, v.resolved = true ∧ v.containerId = e.container.id ∧ v.IsShown e ∧
      ∀ u ∈ vs, u.resolved = true → u.containerId = e.container.id →
        v.thread.pid ≤ u.thread.pid := by
  obtain ⟨before, v, after, rfl, hr, hid, hthread, hfirst⟩ := h
  refine ⟨v, by simp, hr, hid, hthread, fun u hu hur huid => ?_⟩
  rw [List.map_append, List.map_cons, List.pairwise_append, List.pairwise_cons] at hs
  rcases List.mem_append.mp hu with hu | hu
  · exact (hfirst u hu hur huid).elim
  · rcases List.mem_cons.mp hu with rfl | hu
    · exact Int.le_refl u.thread.pid
    · exact hs.2.1.1 u.thread.pid (List.mem_map_of_mem hu)

theorem countLines_suffix {vs : List Visit} {found : Nat} {own : Int} {log : List LogLine}
    (h : ∃ earlier, log = (earlier ++ countLines vs found).filter (Log.passes own))
    (hl : own ∈ [10, 20]) : countLines vs found <:+ log := by
  obtain ⟨earlier, rfl⟩ := h
  have hpass : ∀ line ∈ countLines vs found, Log.passes own line = true := by
    simp only [List.mem_cons, List.not_mem_nil, or_false] at hl
    simp only [countLines, List.forall_mem_cons]
    rcases hl with rfl | rfl
    · exact ⟨rfl, rfl, rfl, by simp⟩
    · exact ⟨rfl, rfl, rfl, by simp⟩
  rw [List.filter_append, List.filter_eq_self.mpr hpass]
  exact List.suffix_append _ _

theorem writable_tour
    (hm : Limits.AllModerate world.fs (world.settings.hostRoot ++ world.settings.cgroupRoot)) :
    Writable (Engine.hostLimits world.fs world.settings) (tour world session args) where
  threads v hv := by
    obtain ⟨htid, _, hw⟩ := pid_of_read (read_of_mem_tour hv)
    exact ⟨htid ▸ hw, hw⟩
  limits key l hl := (Limits.read_contract _ _ key).result l hl hm

/-- A run over at least one process that starts with an empty cache and ends without a fault reports
what it found. -/
theorem run_reports_visits {code : Nat} (hp : processes world args ≠ []) (hc : session.cache = {})
    (hx : (run world session args).exit = .ok code)
    (hm : Limits.AllModerate world.fs (world.settings.hostRoot ++ world.settings.cgroupRoot)) :
    Report world args (tour world session args) (run world session args) := by
  have hl : (setOut world session).cache.listeners = [world.hostname].map Listener.emitting := by
    simp [setOut, hc, Cache.subscribe]
  have hq : ∀ listener ∈ session.cache.listeners, listener.Passive := by simp [hc]
  have hunknown : ∀ id, (setOut world session).cache.knows (containerKey id) = false := by
    intro id
    simp only [setOut, hc]
    rfl
  have hchain : Chain (Engine.hostLimits world.fs world.settings) (setOut world session).cache
      (tour world session args) := tour_chain hq args
  have hw : Writable (Engine.hostLimits world.fs world.settings) (tour world session args) :=
    writable_tour hm
  obtain ⟨hcache, hevents⟩ := run_eq_tour hp session
  obtain ⟨hvisited, hlog⟩ := tour_of_exit hp hx
  obtain ⟨hids, hsize⟩ := hchain.ids_eq hl hw
  have hfirst : ∀ e ∈ (run world session args).events, IsFirst (tour world session args) e :=
    fun e he => (hchain.of_mem_events hl (hevents ▸ he)).2.1
  refine ⟨hvisited, ?_, ?_, ?_, ?_, hfirst, ?_, hlog, countLines_suffix hlog⟩
  · have hzero : (setOut world session).cache.size = 0 := by
      simp [setOut, hc, Cache.size, Cache.subscribe]
    rw [hcache, hsize, hzero, Nat.zero_add, hevents]
  · exact fun e he => (hchain.of_mem_events hl (hevents ▸ he)).2.2.isLine
  · rw [hevents, hids]
    simp [hunknown]
  · rw [hevents]
    exact hchain.nodup_ids hl hw
  · intro pids hall e he
    exact exists_lowest (hfirst e he) (hvisited ▸ processes_sorted hall)

end Program

namespace Hosted

open Program

theorem allModerate (root : String) : Limits.AllModerate fs root := by
  intro cgroup path text _ ht
  have hshort : ∀ p ∈ texts, (Text.unifyNewlines p.2.toList).length ≤ moderateDigits := by
    decide +kernel
  obtain ⟨bytes, hr, hs⟩ := Option.bind_eq_some_iff.mp (FileSystem.readText?_eq_ok ht).2.symm
  have hread : fs.read path = .ok bytes := by
    cases hx : fs.read path with
    | error e => simp [hx, Except.toOption] at hr
    | ok found => simpa [hx, Except.toOption] using hr
  obtain ⟨p, hp, rfl⟩ := exists_of_read hread
  rw [Utf8.decode_encode] at hs
  obtain rfl := Option.some.inj hs
  rw [String.toList_ofList]
  exact moderate_of_length (hshort p hp)

theorem run_reports_container :
    processes world ["2", "1", "2"] ≠ [] ∧
      (run world {} ["2", "1", "2"]).events.map (·.container.id) = ["0123456789ab"] ∧
      (run world {} ["2", "1", "2"]).log.map (·.text) =
        ["containerd: using runtime socket h/containerd.sock", "Processes checked  : 3",
          "Processes resolved : 2", "Containers found   : 1"] ∧
      Report world ["2", "1", "2"] (tour world {} ["2", "1", "2"]) (run world {} ["2", "1", "2"]) := by
  have hp : processes world ["2", "1", "2"] ≠ [] := by decide +kernel
  have hx : (run world {} ["2", "1", "2"]).events.map (·.container.id) = ["0123456789ab"] ∧
      (run world {} ["2", "1", "2"]).log.map (·.text) =
        ["containerd: using runtime socket h/containerd.sock", "Processes checked  : 3",
          "Processes resolved : 2", "Containers found   : 1"] ∧
      (run world {} ["2", "1", "2"]).exit = .ok 0 := by
    decide +kernel
  exact ⟨hp, hx.1, hx.2.1, run_reports_visits hp rfl hx.2.2 (allModerate _)⟩

end Hosted

end Attribution
