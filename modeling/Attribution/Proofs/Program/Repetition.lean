import Attribution.Proofs.Program.Telling

namespace Attribution

/-- A run of the program, by what it finds around it and its arguments. -/
structure Invocation where
  world : Surroundings
  args : List String

namespace Invocation

def run (i : Invocation) (session : Session) : Run := Program.run i.world session i.args

/-- Whether the run comes to processes, and so listens to the cache. -/
def listens (i : Invocation) : Bool := !(Program.processes i.world i.args).isEmpty

end Invocation

namespace Session

/-- What lasts behind runs. -/
def behind (session : Session) (runs : List Invocation) : Session :=
  runs.foldl (fun s i => (i.run s).session) session

/-- What runs print, in order. -/
def printed (session : Session) : List Invocation → List Event
  | [] => []
  | i :: runs => (i.run session).events ++ printed (i.run session).session runs

theorem behind_cons (session : Session) (i : Invocation) (runs : List Invocation) :
    session.behind (i :: runs) = (i.run session).session.behind runs := rfl

theorem printed_append (session : Session) (runs later : List Invocation) :
    session.printed (runs ++ later) = session.printed runs ++ (session.behind runs).printed later := by
  induction runs generalizing session with
  | nil => rfl
  | cons i runs ih =>
    rw [List.cons_append, printed, printed, ih, List.append_assoc, behind_cons]

/-- All that listen send events, one for each of the hostnames. -/
def Emits (session : Session) (hostnames : List String) : Prop :=
  session.cache.listeners = hostnames.map Listener.emitting

end Session

/-- How many events tell of a container. -/
def told (id : String) (events : List Event) : Nat := events.countP (·.container.id == id)

theorem told_append (id : String) (events later : List Event) :
    told id (events ++ later) = told id events + told id later := List.countP_append

theorem told_pos {events : List Event} {e : Event} (h : e ∈ events) :
    0 < told e.container.id events :=
  List.countP_pos_iff.mpr ⟨e, h, beq_self_eq_true _⟩

/-- From one cache to a later one a container is told of by all listeners or by none. It is not told
of if it was known, and is known once it is told of. -/
structure AllOrNone (listeners : Nat) (cache after : Cache) (id : String) (events : List Event) :
    Prop where
  kept : cache.knows (containerKey id) = true → after.knows (containerKey id) = true
  counted : told id events = 0 ∨ (told id events = listeners ∧
    cache.knows (containerKey id) = false ∧ after.knows (containerKey id) = true)

namespace AllOrNone

variable {n : Nat} {cache middle after : Cache} {id : String} {events later : List Event}

theorem none (cache : Cache) : AllOrNone n cache cache id [] := ⟨fun h => h, Or.inl rfl⟩

theorem told_of_knows (h : AllOrNone n cache after id events)
    (hk : cache.knows (containerKey id) = true) : told id events = 0 := by
  rcases h.counted with h | ⟨_, hn, _⟩
  · exact h
  · simp [hk] at hn

theorem trans (h : AllOrNone n cache middle id events) (h' : AllOrNone n middle after id later) :
    AllOrNone n cache after id (events ++ later) := by
  refine ⟨fun hk => h'.kept (h.kept hk), ?_⟩
  rw [told_append]
  rcases h.counted with hz | ⟨hn, hf, hk⟩
  · rw [hz, Nat.zero_add]
    rcases h'.counted with hz' | ⟨hn', hf', hk'⟩
    · exact Or.inl hz'
    · have hf : cache.knows (containerKey id) = false := by
        by_contra hc
        simp [h.kept (by simpa using hc)] at hf'
      exact Or.inr ⟨hn', hf, hk'⟩
  · rw [h'.told_of_knows hk, Nat.add_zero]
    exact Or.inr ⟨hn, hf, h'.kept hk⟩

end AllOrNone

section

variable {limits : LimitsSource} {hostnames : List String} {cache : Cache}

theorem told_build {record : ContainerRecord} (hs : IsShortId record.id) (thread : Option Thread)
    (id : String) (hostnames : List String) :
    told id (hostnames.map (Event.build · record thread)) =
      if record.id = id then hostnames.length else 0 := by
  have he : ∀ hostname, (Event.build hostname record thread).container.id = record.id :=
    fun hostname => Event.id_build hs hostname thread
  unfold told
  rw [List.countP_map]
  split
  next hid =>
    rw [List.countP_eq_length]
    intro hostname _
    simp [he, hid]
  next hid =>
    rw [List.countP_eq_zero]
    intro hostname _
    simp [he, hid]

/-- One visit tells of a container by all listeners or by none. -/
theorem Telling.allOrNone {v : Visit} (h : Telling limits hostnames cache v) (id : String) :
    AllOrNone hostnames.length cache v.resolution.cache id v.events := by
  refine ⟨h.knows_mono, ?_⟩
  cases h with
  | failed _ _ events =>
    rw [events]
    exact Or.inl rfl
  | again _ _ _ events =>
    rw [events]
    exact Or.inl rfl
  | fresh record key short resolved limited unknown stored events =>
    rw [events]
    split
    next =>
      rw [told_build short]
      split
      next hid =>
        have hv : v.containerId = id := (congrArg Prod.fst key).symm.trans hid
        rw [hv] at key unknown
        refine Or.inr ⟨rfl, unknown, ?_⟩
        rw [stored, Cache.knows_extend (key ▸ unknown), key, beq_self_eq_true, Bool.or_true]
      next => exact Or.inl rfl
    next => exact Or.inl rfl

theorem Chain.allOrNone {vs : List Visit} (h : Chain limits cache vs)
    (hl : cache.listeners = hostnames.map Listener.emitting) (id : String) :
    AllOrNone hostnames.length cache (cache.afterVisits vs) id (vs.flatMap (·.events)) ∧
      (cache.afterVisits vs).listeners = hostnames.map Listener.emitting := by
  induction vs generalizing cache with
  | nil => exact ⟨.none cache, hl⟩
  | cons v vs ih =>
    obtain ⟨ht, hc, hn⟩ := h.telling_cons hl
    obtain ⟨ha, hb⟩ := ih hc hn
    rw [List.flatMap_cons]
    exact ⟨(ht.allOrNone id).trans ha, hb⟩

end

namespace Invocation

variable {session : Session} {hostnames : List String} {i : Invocation}

theorem run_of_not_listens (h : i.listens = false) (session : Session) :
    (i.run session).session = session ∧ (i.run session).events = [] := by
  have hp : Program.processes i.world i.args = [] := by simpa [listens] using h
  exact Program.run_of_processes_eq_nil hp session

/-- A run over processes listens too, and tells of each container by all listeners or by none. -/
theorem run_of_listens (h : i.listens = true) (he : session.Emits hostnames) (id : String) :
    (i.run session).session.Emits (hostnames ++ [i.world.hostname]) ∧
      AllOrNone (hostnames.length + 1) session.cache (i.run session).session.cache id
        (i.run session).events := by
  have hp : Program.processes i.world i.args ≠ [] := by simpa [listens] using h
  have hl : (Program.setOut i.world session).cache.listeners =
      (hostnames ++ [i.world.hostname]).map Listener.emitting := by
    rw [List.map_append, ← he]
    rfl
  have hq : ∀ listener ∈ session.cache.listeners, listener.Passive := by
    intro listener hm
    rw [he] at hm
    obtain ⟨hostname, _, rfl⟩ := List.mem_map.mp hm
    exact Listener.emitting_passive hostname
  obtain ⟨hc, hv⟩ := Program.run_eq_tour hp session
  obtain ⟨ha, hb⟩ := (Program.tour_chain hq i.args).allOrNone hl id
  rw [List.length_append, List.length_singleton] at ha
  rw [← hc] at ha hb
  rw [← hv] at ha
  exact ⟨hb, ha.kept, ha.counted⟩

end Invocation

namespace Session

variable {session : Session} {hostnames : List String}

theorem behind_emits (he : session.Emits hostnames) (runs : List Invocation) :
    ∃ later : List String, later.length = runs.countP Invocation.listens ∧
      (session.behind runs).Emits (hostnames ++ later) := by
  induction runs generalizing session hostnames with
  | nil => exact ⟨[], rfl, by simpa [behind] using he⟩
  | cons i runs ih =>
    by_cases hi : i.listens = true
    · obtain ⟨later, hlen, hb⟩ := ih (Invocation.run_of_listens hi he "").1
      refine ⟨i.world.hostname :: later, ?_, ?_⟩
      · rw [List.length_cons, hlen, List.countP_cons_of_pos hi]
      · rwa [behind_cons, List.append_cons]
    · have hn : i.listens = false := by simpa using hi
      obtain ⟨later, hlen, hb⟩ := ih he
      refine ⟨later, ?_, ?_⟩
      · rw [hlen, List.countP_cons_of_neg hi]
      · rwa [behind_cons, (Invocation.run_of_not_listens hn session).1]

/-- All events of a container come from one run, and are as many as the runs over processes up to
that one, added to those that listened before all of them. -/
theorem told_printed (he : session.Emits hostnames) (runs : List Invocation) (id : String) :
    (session.cache.knows (containerKey id) = true → told id (session.printed runs) = 0) ∧
      (told id (session.printed runs) = 0 ∨ ∃ before i after, runs = before ++ i :: after ∧
        told id (i.run (session.behind before)).events = told id (session.printed runs) ∧
        told id (session.printed runs) = hostnames.length + before.countP Invocation.listens + 1) := by
  induction runs generalizing session hostnames with
  | nil => exact ⟨fun _ => rfl, Or.inl rfl⟩
  | cons i runs ih =>
    rw [printed, told_append]
    by_cases hi : i.listens = true
    · obtain ⟨hb, ha⟩ := Invocation.run_of_listens hi he id
      obtain ⟨hk, hs⟩ := ih hb
      refine ⟨fun h => by rw [ha.told_of_knows h, hk (ha.kept h)], ?_⟩
      rcases ha.counted with hz | ⟨hn, _, hknown⟩
      · rw [hz, Nat.zero_add]
        refine hs.imp_right ?_
        rintro ⟨before, j, after, rfl, hj, hc⟩
        refine ⟨i :: before, j, after, rfl, hj, ?_⟩
        rw [hc, List.length_append, List.countP_cons_of_pos hi, List.length_singleton]
        omega
      · rw [hk hknown, Nat.add_zero]
        exact Or.inr ⟨[], i, runs, rfl, rfl, hn⟩
    · obtain ⟨hsame, hnone⟩ := Invocation.run_of_not_listens (by simpa using hi) session
      have hz : told id (i.run session).events = 0 := by rw [hnone]; rfl
      rw [hz, Nat.zero_add, hsame]
      obtain ⟨hk, hs⟩ := ih he
      refine ⟨hk, hs.imp_right ?_⟩
      rintro ⟨before, j, after, rfl, hj, hc⟩
      refine ⟨i :: before, j, after, rfl, ?_, ?_⟩
      · rwa [behind_cons, hsame]
      · rwa [List.countP_cons_of_neg hi]

end Session

/-- No container is told of twice by runs of one program if and only if all that they print comes
from the first run over processes. -/
theorem told_once_iff_first_run (runs : List Invocation) :
    (∀ id, told id (Session.printed {} runs) ≤ 1) ↔
      ∀ before i after, runs = before ++ i :: after →
        (i.run (Session.behind {} before)).events ≠ [] → ∀ j ∈ before, j.listens = false := by
  have he : Session.Emits {} [] := rfl
  constructor
  · intro honce before i after hruns hprints
    obtain ⟨e, hm⟩ := List.exists_mem_of_ne_nil _ hprints
    have hlistens : i.listens = true := by
      by_contra hn
      exact hprints (Invocation.run_of_not_listens (by simpa using hn) _).2
    obtain ⟨later, hlater, hb⟩ := Session.behind_emits he before
    have hpos := told_pos hm
    have hcount := (Invocation.run_of_listens hlistens hb e.container.id).2.counted
    rw [List.nil_append, hlater] at hcount
    have hall : told e.container.id (i.run (Session.behind {} before)).events ≤
        told e.container.id (Session.printed {} runs) := by
      rw [hruns, Session.printed_append, told_append, Session.printed, told_append]
      omega
    have hzero : before.countP Invocation.listens = 0 := by
      have := honce e.container.id
      omega
    intro j hj
    simpa using List.countP_eq_zero.mp hzero j hj
  · intro hfirst id
    rcases (Session.told_printed he runs id).2 with hz | ⟨before, i, after, hruns, hi, hc⟩
    · omega
    · have hprints : (i.run (Session.behind {} before)).events ≠ [] := by
        intro hnil
        rw [hnil, hc] at hi
        simp [told] at hi
      have hzero : before.countP Invocation.listens = 0 := by
        rw [List.countP_eq_zero]
        intro j hj
        simp [hfirst before i after hruns hprints j hj]
      rw [hc, hzero]
      simp

/-- The first run finds no container and listens all the same, so that the second tells twice of the
one that it finds. -/
theorem Hosted.second_run_tells_twice :
    let runs : List Invocation := [⟨Hosted.world, ["1"]⟩, ⟨Hosted.world, ["2"]⟩]
    ((Session.printed {} runs).map fun e => (e.container.id, e.container.fullId)) =
        [("0123456789ab", Hosted.fullId), ("0123456789ab", Hosted.fullId)] ∧
      ¬∀ id, told id (Session.printed {} runs) ≤ 1 := by
  intro runs
  have hids : (Session.printed {} runs).map (fun e => (e.container.id, e.container.fullId)) =
      [("0123456789ab", Hosted.fullId), ("0123456789ab", Hosted.fullId)] := by
    decide +kernel
  refine ⟨hids, fun honce => ?_⟩
  have htwice : told "0123456789ab" (Session.printed {} runs) =
      ((Session.printed {} runs).map fun e => (e.container.id, e.container.fullId)).countP
        (·.1 == "0123456789ab") := by
    rw [List.countP_map]
    rfl
  rw [hids] at htwice
  have hle := honce "0123456789ab"
  rw [htwice] at hle
  revert hle
  decide

end Attribution
