import Attribution.Program.Scan
import Attribution.Proofs.Container.Thread
import Attribution.Proofs.Engine.Outcome

namespace Attribution

/-- A process as it was read, and what came of the attempt to attribute it. -/
structure Visit where
  thread : Thread
  resolution : Resolution

namespace Visit

/-- Whether the process was attributed. -/
def resolved (v : Visit) : Bool :=
  match v.resolution.answer with
  | .ok true => true
  | _ => false

/-- The id of the container that the process was attributed to. -/
def containerId (v : Visit) : String := v.resolution.thread.containerId

def events (v : Visit) : List Event := v.resolution.hearings.flatMap (·.events)

theorem resolved_iff {v : Visit} : v.resolved = true ↔ v.resolution.answer = .ok true := by
  unfold resolved
  split <;> simp_all

end Visit

/-- The cache behind visits. -/
def Cache.afterVisits (cache : Cache) (vs : List Visit) : Cache :=
  vs.foldl (fun _ v => v.resolution.cache) cache

/-- Visits that follow each other on one cache. -/
inductive Chain (limits : LimitsSource) : Cache → List Visit → Prop
  | nil (cache : Cache) : Chain limits cache []
  | cons {cache : Cache} {v : Visit} {vs : List Visit} :
    Outcome limits cache v.thread v.resolution → Chain limits v.resolution.cache vs →
      Chain limits cache (v :: vs)

namespace Program

def procRoot (world : Surroundings) : String := world.settings.hostRoot ++ world.settings.procRoot

def attempt (world : Surroundings) (engine : Engine) (session : Session) (thread : Thread) :
    Resolution :=
  engine.resolve world.service (Engine.hostLimits world.fs world.settings) session.network
    session.cache thread

/-- What lasts behind an attempt. -/
def sessionAfter (r : Resolution) : Session := ⟨r.cache, r.network⟩

/-- The visits of processes, up to the first fault. -/
def visits (world : Surroundings) (engine : Engine) (session : Session) : List Int → List Visit
  | [] => []
  | pid :: pids =>
    match Thread.read world.fs (procRoot world) pid with
    | .error _ => []
    | .ok thread =>
      let r := attempt world engine session thread
      ⟨thread, r⟩ ::
        match r.answer with
        | .error _ => []
        | .ok _ => visits world engine (sessionAfter r) pids

def Progress.advanceAll (p : Progress) (vs : List Visit) : Progress :=
  vs.foldl (fun p v => p.advance v.thread.pid v.resolution) p

theorem pid_of_read {fs : FileSystem} {root : String} {pid : Int} {thread : Thread}
    (h : Thread.read fs root pid = .ok thread) :
    thread.tid = pid ∧ thread.pid = pid ∧ Text.writable pid = true := by
  obtain ⟨hw, _, rfl⟩ := Thread.read_eq_ok h
  exact ⟨rfl, rfl, hw⟩

section

variable {world : Surroundings} {engine : Engine} {session : Session} {p : Progress} {pid : Int}
  {pids : List Int} {thread : Thread} {fault : Fault} {found : Bool}

theorem visits_of_unreadable (hr : Thread.read world.fs (procRoot world) pid = .error fault) :
    visits world engine session (pid :: pids) = [] := by simp [visits, hr]

theorem visits_of_fault (hr : Thread.read world.fs (procRoot world) pid = .ok thread)
    (ha : (attempt world engine session thread).answer = .error fault) :
    visits world engine session (pid :: pids) = [⟨thread, attempt world engine session thread⟩] := by
  simp [visits, hr, ha]

theorem visits_of_answer (hr : Thread.read world.fs (procRoot world) pid = .ok thread)
    (ha : (attempt world engine session thread).answer = .ok found) :
    visits world engine session (pid :: pids) =
      ⟨thread, attempt world engine session thread⟩ ::
        visits world engine (sessionAfter (attempt world engine session thread)) pids := by
  simp [visits, hr, ha]

theorem resolveAll_of_unreadable (hr : Thread.read world.fs (procRoot world) pid = .error fault) :
    resolveAll world engine (procRoot world) p (pid :: pids) = (p, some fault) := by
  simp [resolveAll, hr]

theorem resolveAll_of_fault (hr : Thread.read world.fs (procRoot world) pid = .ok thread)
    (ha : (attempt world engine p.session thread).answer = .error fault) :
    resolveAll world engine (procRoot world) p (pid :: pids) =
      (p.advance pid (attempt world engine p.session thread), some fault) := by
  unfold attempt at ha ⊢
  simp [resolveAll, hr, ha]

theorem resolveAll_of_answer (hr : Thread.read world.fs (procRoot world) pid = .ok thread)
    (ha : (attempt world engine p.session thread).answer = .ok found) :
    resolveAll world engine (procRoot world) p (pid :: pids) =
      resolveAll world engine (procRoot world)
        (p.advance pid (attempt world engine p.session thread)) pids := by
  unfold attempt at ha ⊢
  simp [resolveAll, hr, ha]

theorem resolveAll_fst (p : Progress) (pids : List Int) :
    (resolveAll world engine (procRoot world) p pids).1 =
      p.advanceAll (visits world engine p.session pids) := by
  induction pids generalizing p with
  | nil => rfl
  | cons pid pids ih =>
    cases hr : Thread.read world.fs (procRoot world) pid with
    | error fault =>
      rw [resolveAll_of_unreadable hr, visits_of_unreadable hr]
      rfl
    | ok thread =>
      obtain ⟨_, rfl, _⟩ := pid_of_read hr
      cases ha : (attempt world engine p.session thread).answer with
      | error fault =>
        rw [resolveAll_of_fault hr ha, visits_of_fault hr ha]
        rfl
      | ok found =>
        rw [resolveAll_of_answer hr ha, visits_of_answer hr ha]
        exact ih _

theorem pids_of_visits (h : (resolveAll world engine (procRoot world) p pids).2 = none) :
    (visits world engine p.session pids).map (·.thread.pid) = pids := by
  induction pids generalizing p with
  | nil => rfl
  | cons pid pids ih =>
    cases hr : Thread.read world.fs (procRoot world) pid with
    | error fault => simp [resolveAll_of_unreadable hr] at h
    | ok thread =>
      obtain ⟨_, rfl, _⟩ := pid_of_read hr
      cases ha : (attempt world engine p.session thread).answer with
      | error fault => simp [resolveAll_of_fault hr ha] at h
      | ok found =>
        rw [resolveAll_of_answer hr ha] at h
        rw [visits_of_answer hr ha]
        exact congrArg (thread.pid :: ·) (ih h)

theorem read_of_mem_visits {v : Visit} (h : v ∈ visits world engine session pids) :
    ∃ pid ∈ pids, Thread.read world.fs (procRoot world) pid = .ok v.thread := by
  induction pids generalizing session with
  | nil => simp [visits] at h
  | cons pid pids ih =>
    cases hr : Thread.read world.fs (procRoot world) pid with
    | error fault => simp [visits_of_unreadable hr] at h
    | ok thread =>
      cases ha : (attempt world engine session thread).answer with
      | error fault =>
        rw [visits_of_fault hr ha, List.mem_singleton] at h
        exact ⟨pid, by simp, h ▸ hr⟩
      | ok found =>
        rw [visits_of_answer hr ha] at h
        rcases List.mem_cons.mp h with rfl | h
        · exact ⟨pid, by simp, hr⟩
        · obtain ⟨q, hq, ht⟩ := ih h
          exact ⟨q, List.mem_cons_of_mem pid hq, ht⟩

theorem visits_chain (hp : ∀ listener ∈ session.cache.listeners, listener.Passive)
    (pids : List Int) :
    Chain (Engine.hostLimits world.fs world.settings) session.cache
      (visits world engine session pids) := by
  induction pids generalizing session with
  | nil => exact .nil session.cache
  | cons pid pids ih =>
    cases hr : Thread.read world.fs (procRoot world) pid with
    | error fault =>
      rw [visits_of_unreadable hr]
      exact .nil session.cache
    | ok thread =>
      have ho : Outcome (Engine.hostLimits world.fs world.settings) session.cache thread
          (attempt world engine session thread) := Engine.resolve_outcome hp
      cases ha : (attempt world engine session thread).answer with
      | error fault =>
        rw [visits_of_fault hr ha]
        exact .cons ho (.nil _)
      | ok found =>
        rw [visits_of_answer hr ha]
        have hn : ∀ listener ∈ (sessionAfter (attempt world engine session thread)).cache.listeners,
            listener.Passive := by
          rw [sessionAfter, ho.listeners_eq]
          exact hp
        exact .cons ho (ih hn)

end

theorem advanceAll_eq (p : Progress) (vs : List Visit) :
    (p.advanceAll vs).session.cache = p.session.cache.afterVisits vs ∧
      (p.advanceAll vs).events = p.events ++ vs.flatMap (·.events) ∧
      (p.advanceAll vs).resolved = p.resolved + vs.countP (·.resolved) := by
  induction vs generalizing p with
  | nil => simp [Progress.advanceAll, Cache.afterVisits]
  | cons v vs ih =>
    obtain ⟨hc, he, hr⟩ := ih (p.advance v.thread.pid v.resolution)
    refine ⟨hc, ?_, ?_⟩
    · have ha : (p.advance v.thread.pid v.resolution).events = p.events ++ v.events := rfl
      rw [List.flatMap_cons, ← List.append_assoc, ← ha]
      exact he
    · have ha : (p.advance v.thread.pid v.resolution).resolved =
          if v.resolved = true then p.resolved + 1 else p.resolved := rfl
      have hs : (p.advanceAll (v :: vs)).resolved =
          (p.advance v.thread.pid v.resolution).resolved + vs.countP (·.resolved) := hr
      rw [hs, ha, List.countP_cons]
      split <;> omega

/-- How the engine of a run starts. -/
def startup (world : Surroundings) (session : Session) : Startup :=
  Engine.start world.fs world.service session.network world.settings

/-- Where a run stands when it comes to its processes. It listens to the cache by then. -/
def setOut (world : Surroundings) (session : Session) : Session :=
  ⟨session.cache.subscribe (Listener.emitting world.hostname), (startup world session).network⟩

/-- The processes that a command is about; none if they cannot be told. -/
def processes (world : Surroundings) (args : List String) : List Int :=
  match CommandLine.parse args with
  | .scan pids all =>
    match if all then allPids world.fs (procRoot world) else .ok (pids, []) with
    | .ok (pids, _) => pids
    | .error _ => []
  | _ => []

/-- The visits of a run. -/
def tour (world : Surroundings) (session : Session) (args : List String) : List Visit :=
  match (startup world session).engine with
  | .error _ => []
  | .ok engine => visits world engine (setOut world session) (processes world args)

section

variable {world : Surroundings} {session : Session} {args : List String}

/-- A run without processes does nothing to what lasts. -/
theorem run_of_processes_eq_nil (h : processes world args = []) (session : Session) :
    (run world session args).session = session ∧ (run world session args).events = [] := by
  unfold processes procRoot at h
  unfold run
  split
  next => exact ⟨rfl, rfl⟩
  next => exact ⟨rfl, rfl⟩
  next pids all hc =>
    simp only [hc] at h
    unfold scan
    simp only
    split
    next => exact ⟨rfl, rfl⟩
    next => exact ⟨rfl, rfl⟩
    next found log hne hl =>
      simp only [hl] at h
      exact (hne h).elim

theorem run_of_processes_ne_nil (h : processes world args ≠ []) (session : Session) :
    ∃ earlier, run world session args =
      { scanPids world session (procRoot world) (processes world args) with
        log := (earlier ++ (scanPids world session (procRoot world) (processes world args)).log).filter
          (Log.passes (Log.levelOfName world.settings.logLevel)) } := by
  unfold processes at h ⊢
  unfold run
  split
  next hc => simp [hc] at h
  next hc => simp [hc] at h
  next pids all hc =>
    simp only [hc] at h ⊢
    unfold scan
    simp only
    split
    next hl =>
      unfold procRoot at h
      simp [hl] at h
    next hl =>
      unfold procRoot at h
      simp [hl] at h
    next found log _ hl =>
      unfold procRoot
      simp only [hl]
      exact ⟨log, rfl⟩

theorem scanPids_of_engine {engine : Engine} (h : (startup world session).engine = .ok engine)
    (pids : List Int) :
    ∃ p : Progress, p.session = setOut world session ∧ p.resolved = 0 ∧ p.events = [] ∧
      scanPids world session (procRoot world) pids =
        let behind := resolveAll world engine (procRoot world) p pids
        { exit := behind.2.elim (.ok 0) .error
          session := closeAll behind.1.session
          events := behind.1.events
          log := behind.2.elim
            (behind.1.log ++ summary pids.length behind.1.resolved behind.1.session.cache.size)
            fun _ => behind.1.log } := by
  unfold startup at h
  refine ⟨{ session := setOut world session, log :=
    if engine.client.isNone then
      (startup world session).log ++
        [Log.warning "" "No containerd runtime reachable; nothing will resolve."]
    else (startup world session).log }, rfl, rfl, rfl, ?_⟩
  unfold scanPids setOut startup
  simp only [h]
  split
  next fault hf => simp only [hf, Option.elim_some]
  next hf =>
    simp only [hf, Option.elim_none]
    rfl

theorem scanPids_of_fault {fault : Fault} (h : (startup world session).engine = .error fault)
    (pids : List Int) :
    scanPids world session (procRoot world) pids =
      { exit := .error fault, session := setOut world session, log := (startup world session).log } := by
  unfold startup at h
  unfold scanPids
  simp only [h]
  rfl

/-- A run over processes leaves what its visits leave and prints what they bring. -/
theorem run_eq_tour (h : processes world args ≠ []) (session : Session) :
    (run world session args).session.cache =
        (setOut world session).cache.afterVisits (tour world session args) ∧
      (run world session args).events = (tour world session args).flatMap (·.events) := by
  obtain ⟨earlier, hr⟩ := run_of_processes_ne_nil h session
  rw [hr]
  unfold tour
  cases he : (startup world session).engine with
  | error fault =>
    rw [scanPids_of_fault he]
    exact ⟨rfl, rfl⟩
  | ok engine =>
    obtain ⟨p, hs, _, hn, hp⟩ := scanPids_of_engine he (processes world args)
    obtain ⟨hc, hv, _⟩ := advanceAll_eq p (visits world engine p.session (processes world args))
    rw [← resolveAll_fst] at hc hv
    rw [hn, List.nil_append] at hv
    rw [hp, ← hs]
    exact ⟨hc, hv⟩

theorem read_of_mem_tour {v : Visit} (h : v ∈ tour world session args) :
    Thread.read world.fs (procRoot world) v.thread.pid = .ok v.thread := by
  unfold tour at h
  split at h
  next => simp at h
  next =>
    obtain ⟨pid, _, hr⟩ := read_of_mem_visits h
    obtain ⟨_, hp, _⟩ := pid_of_read hr
    rwa [hp]

theorem tour_of_processes_eq_nil (h : processes world args = []) (session : Session) :
    tour world session args = [] := by
  unfold tour
  rw [h]
  split <;> rfl

theorem tour_chain (hp : ∀ listener ∈ session.cache.listeners, listener.Passive)
    (args : List String) :
    Chain (Engine.hostLimits world.fs world.settings) (setOut world session).cache
      (tour world session args) := by
  have hq : ∀ listener ∈ (setOut world session).cache.listeners, listener.Passive := by
    intro listener hl
    rcases List.mem_append.mp hl with hl | hl
    · exact hp listener hl
    · exact List.mem_singleton.mp hl ▸ Listener.emitting_passive world.hostname
  unfold tour
  split
  next => exact .nil _
  next engine _ => exact visits_chain hq _

/-- A run over processes that ends well has visited all of them, and says how it went at its end. -/
theorem tour_of_exit {code : Nat} (h : processes world args ≠ [])
    (hx : (run world session args).exit = .ok code) :
    (tour world session args).map (·.thread.pid) = processes world args ∧
      ∃ earlier, (run world session args).log =
        (earlier ++ summary (tour world session args).length
          ((tour world session args).countP (·.resolved)) (run world session args).session.cache.size).filter
          (Log.passes (Log.levelOfName world.settings.logLevel)) := by
  obtain ⟨first, hr⟩ := run_of_processes_ne_nil h session
  unfold tour
  cases he : (startup world session).engine with
  | error fault =>
    rw [hr, scanPids_of_fault he] at hx
    simp at hx
  | ok engine =>
    obtain ⟨p, hs, hz, _, hp⟩ := scanPids_of_engine he (processes world args)
    rw [hr, hp] at hx
    cases hf : (resolveAll world engine (procRoot world) p (processes world args)).2 with
    | some fault => simp [hf] at hx
    | none =>
      have hpids := pids_of_visits hf
      have hlength : (visits world engine p.session (processes world args)).length =
          (processes world args).length := by
        rw [← List.length_map (·.thread.pid), hpids]
      obtain ⟨_, _, hv⟩ := advanceAll_eq p (visits world engine p.session (processes world args))
      rw [← resolveAll_fst, hz, Nat.zero_add] at hv
      rw [hr, hp]
      simp only [hf, Option.elim_none]
      rw [← hs]
      refine ⟨hpids, first ++
        (resolveAll world engine (procRoot world) p (processes world args)).1.log, ?_⟩
      rw [List.append_assoc, hlength, ← hv]
      rfl

end

end Program
end Attribution
