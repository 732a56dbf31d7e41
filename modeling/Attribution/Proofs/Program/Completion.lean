import Attribution.Proofs.Cgroup.Limits
import Attribution.Proofs.Containerd.Inventory
import Attribution.Proofs.Engine.Readiness
import Attribution.Proofs.Program.CommandLine
import Attribution.Proofs.Program.Telling

namespace Attribution

namespace Program

/-- The names under the root of the processes; none if it cannot be listed. -/
def entries (world : Surroundings) : List String :=
  (world.fs.list (procRoot world)).toOption.getD []

/-- The processes that a command asks for: those that it names, or all that have an entry. -/
def asked (world : Surroundings) (pids : List Int) (all : Bool) : List Int :=
  if all then
    ((entries world).filterMap fun name => (pidOf? name).bind Except.toOption).mergeSort (· ≤ ·)
  else pids

/-- Every entry that looks like a number is one. -/
def Numeric (world : Surroundings) : Prop :=
  ∀ name ∈ entries world, ∀ fault, pidOf? name ≠ some (.error fault)

section

variable {world : Surroundings} {session : Session} {args : List String} {pids : List Int}
  {all : Bool}

theorem allPids_of_numeric (hp : IsPath (procRoot world)) (hn : Numeric world) :
    ∃ log, allPids world.fs (procRoot world) = .ok (asked world pids true, log) := by
  unfold allPids FileSystem.names
  rw [FileSystem.guarded_of_isPath hp]
  cases hl : world.fs.list (procRoot world) with
  | error e =>
    have ha : asked world pids true = [] := by
      simp [asked, entries, hl, Except.toOption]
    rw [ha]
    exact ⟨_, rfl⟩
  | ok names =>
    have he : entries world = names := by simp [entries, hl, Except.toOption]
    rw [Numeric, he] at hn
    have hm := mapM_id_eq_ok_iff.mpr (filterMap_eq_map_ok hn)
    refine ⟨[], ?_⟩
    simp only [asked, he, ↓reduceIte, bind, Except.bind, hm]
    rfl

theorem numeric_of_allPids {r : List Int × List LogLine}
    (h : allPids world.fs (procRoot world) = .ok r) : Numeric world := by
  intro name hname fault hf
  unfold allPids FileSystem.names FileSystem.guarded at h
  split at h
  next => cases h
  next =>
    cases hl : world.fs.list (procRoot world) with
    | error e => simp [entries, hl, Except.toOption] at hname
    | ok names =>
      have he : entries world = names := by simp [entries, hl, Except.toOption]
      cases hm : (names.filterMap pidOf?).mapM id with
      | error e => simp [hl, hm, bind, Except.bind] at h
      | ok found =>
        have hx : Except.error fault ∈ names.filterMap pidOf? :=
          List.mem_filterMap.mpr ⟨name, he ▸ hname, hf⟩
        rw [mapM_id_eq_ok_iff.mp hm] at hx
        simp at hx

/-- A command that may ask for all processes comes to what it asks for if the entries are numeric. -/
theorem choice_eq (hp : IsPath (procRoot world)) (hn : all = true → Numeric world)
    (pids : List Int) :
    ∃ log, (if all then allPids world.fs (procRoot world) else .ok (pids, [])) =
      .ok (asked world pids all, log) := by
  cases all with
  | false => exact ⟨[], rfl⟩
  | true => exact allPids_of_numeric hp (hn rfl)

theorem processes_eq_asked (hc : CommandLine.parse args = .scan pids all)
    (hp : IsPath (procRoot world)) (hn : all = true → Numeric world) :
    processes world args = asked world pids all := by
  obtain ⟨log, hl⟩ := choice_eq hp hn pids
  unfold processes
  simp only [hc, hl]

theorem exit_of_asked_eq_nil (hc : CommandLine.parse args = .scan pids all)
    (hp : IsPath (procRoot world)) (hn : all = true → Numeric world)
    (h : asked world pids all = []) : (run world session args).exit = .ok 0 := by
  obtain ⟨log, hl⟩ := choice_eq hp hn pids
  rw [h] at hl
  unfold procRoot at hl
  unfold run scan
  simp only [hc, hl]

theorem numeric_of_exit {code : Nat} (hc : CommandLine.parse args = .scan pids all)
    (hx : (run world session args).exit = .ok code) : all = true → Numeric world := by
  rintro rfl
  cases hl : allPids world.fs (procRoot world) with
  | ok r => exact numeric_of_allPids hl
  | error fault =>
    unfold procRoot at hl
    unfold run scan at hx
    simp [hc, hl] at hx

theorem writable_of_asked (hc : CommandLine.parse args = .scan pids all) :
    ∀ pid ∈ asked world pids all, Text.writable pid = true := by
  cases all with
  | false => exact CommandLine.writable_of_parse hc
  | true =>
    intro pid hm
    obtain ⟨name, _, hn⟩ := List.mem_filterMap.mp (List.mem_mergeSort.mp hm)
    obtain ⟨r, hr, ho⟩ := Option.bind_eq_some_iff.mp hn
    unfold pidOf? at hr
    split at hr
    next =>
      split at hr
      next n hread =>
        obtain rfl := Option.some.inj hr
        obtain rfl := Option.some.inj ho
        exact Text.writable_of_readInteger hread
      next =>
        obtain rfl := Option.some.inj hr
        cases ho
      next =>
        obtain rfl := Option.some.inj hr
        cases ho
    next => cases hr

end

/-- A host whose settings, limit files and runtime are no cause for a fault. -/
structure Sound (world : Surroundings) : Prop where
  usable : world.settings.Usable
  procRoot : IsPath world.settings.procRoot
  cgroupRoot : IsPath world.settings.cgroupRoot
  runtime : Decodable world.service
  limits : ∀ cgroup path,
    Limits.IsPlace (world.settings.hostRoot ++ world.settings.cgroupRoot) cgroup path →
      world.fs.Legible path

/-- A run ends well and attempts all the processes, each with as much as its files show. -/
structure Completes (world : Surroundings) (session : Session) (args : List String)
    (pids : List Int) : Prop where
  exit : (run world session args).exit = .ok 0
  attempted : (tour world session args).map (·.thread) =
    pids.map (Thread.shown world.fs (procRoot world))

section

variable {world : Surroundings} {session : Session} {engine : Engine} {args : List String}
  {pids : List Int} {all : Bool}

theorem Sound.limits_succeed (hs : Sound world) {thread : Thread}
    (hg : ∀ m ∈ thread.cgroups, IsPath m.path) (id : String) :
    ∃ l, Engine.hostLimits world.fs world.settings
      (Engine.limitsKey id { thread with containerId := id }) = .ok l := by
  have hroot : IsPath (world.settings.hostRoot ++ world.settings.cgroupRoot) :=
    isPath_append.mpr ⟨hs.usable.hostRoot, hs.cgroupRoot⟩
  have hreadable : ∀ subsystem, Limits.Readable world.fs
      (world.settings.hostRoot ++ world.settings.cgroupRoot) (thread.cgroup subsystem) := by
    intro subsystem path hp
    have hpath := Limits.isPath_of_isPlace hroot (Membership.isPath_pathOf hg subsystem) hp
    exact ⟨_, FileSystem.readText?_of_legible hpath (hs.limits _ path hp)⟩
  exact (Limits.read_contract _ _ _).succeeds
    ⟨hreadable "memory", hreadable "cpu", hreadable "cpuset"⟩

/-- Processes whose files are legible are all attempted without a fault. -/
theorem resolveAll_succeeds (hs : Sound world) {p : Progress} (hr : engine.Ready p.session.network)
    (hread : ∀ pid ∈ pids,
      Thread.read world.fs (procRoot world) pid = .ok (Thread.shown world.fs (procRoot world) pid))
    (hg : ∀ pid ∈ pids, ∀ m ∈ (Thread.shown world.fs (procRoot world) pid).cgroups, IsPath m.path) :
    (resolveAll world engine (procRoot world) p pids).2 = none := by
  induction pids generalizing p with
  | nil => rfl
  | cons pid pids ih =>
    obtain ⟨⟨found, ha⟩, hn⟩ :
        (∃ found, (attempt world engine p.session
          (Thread.shown world.fs (procRoot world) pid)).answer = .ok found) ∧
        engine.Ready (attempt world engine p.session
          (Thread.shown world.fs (procRoot world) pid)).network :=
      Engine.resolve_succeeds hs.runtime hr (hs.limits_succeed (hg pid (by simp)))
    rw [resolveAll_of_answer (hread pid (by simp)) ha]
    exact ih hn (fun q hq => hread q (List.mem_cons_of_mem pid hq))
      fun q hq => hg q (List.mem_cons_of_mem pid hq)

theorem exit_of_legible (hs : Sound world) (h : processes world args ≠ [])
    (hread : ∀ pid ∈ processes world args,
      Thread.read world.fs (procRoot world) pid = .ok (Thread.shown world.fs (procRoot world) pid))
    (hg : ∀ pid ∈ processes world args, ∀ m ∈ (Thread.shown world.fs (procRoot world) pid).cgroups,
      IsPath m.path) : (run world session args).exit = .ok 0 := by
  obtain ⟨engine, he, hr⟩ := Engine.start_succeeds world.fs hs.runtime hs.usable session.network
  obtain ⟨p, hp, _, _, hscan⟩ := scanPids_of_engine he (processes world args)
  obtain ⟨_, hrun⟩ := run_of_processes_ne_nil h session
  have hready : engine.Ready p.session.network := hp ▸ hr
  rw [hrun, hscan]
  simp only [resolveAll_succeeds hs hready hread hg, Option.elim_none]

/-- On a sound host a run completes if and only if all entries that look like numbers are numbers, and
the files of all processes that it is asked for are legible. -/
theorem completes_iff_legible (hs : Sound world) (hc : CommandLine.parse args = .scan pids all)
    (hg : ∀ pid ∈ asked world pids all, ∀ m ∈ (Thread.shown world.fs (procRoot world) pid).cgroups,
      IsPath m.path) :
    Completes world session args (asked world pids all) ↔
      (all = true → Numeric world) ∧ ∀ pid ∈ asked world pids all,
        world.fs.Legible (Thread.commFile (procRoot world) pid) ∧
          world.fs.Legible (Thread.cgroupFile (procRoot world) pid) := by
  have hroot : IsPath (procRoot world) := isPath_append.mpr ⟨hs.usable.hostRoot, hs.procRoot⟩
  constructor
  · intro h
    refine ⟨numeric_of_exit hc h.exit, fun pid hm => ?_⟩
    have hshown : Thread.shown world.fs (procRoot world) pid ∈
        (tour world session args).map (·.thread) := by
      rw [h.attempted]
      exact List.mem_map_of_mem hm
    obtain ⟨v, hv, ht⟩ := List.mem_map.mp hshown
    have hread := read_of_mem_tour hv
    rw [ht] at hread
    exact (Thread.read_eq_ok hread).2.1
  · rintro ⟨hn, hlegible⟩
    have hread : ∀ pid ∈ asked world pids all, Thread.read world.fs (procRoot world) pid =
        .ok (Thread.shown world.fs (procRoot world) pid) := fun pid hm =>
      Thread.read_of_legible (writable_of_asked hc pid hm) hroot (hlegible pid hm).1
        (hlegible pid hm).2
    have hprocesses : processes world args = asked world pids all :=
      processes_eq_asked hc hroot hn
    by_cases hnil : asked world pids all = []
    · refine ⟨exit_of_asked_eq_nil hc hroot hn hnil, ?_⟩
      rw [tour_of_processes_eq_nil (hprocesses.trans hnil), hnil]
      rfl
    · rw [← hprocesses] at hnil hread hg ⊢
      have hx : (run world session args).exit = .ok 0 := exit_of_legible hs hnil hread hg
      refine ⟨hx, ?_⟩
      rw [← (tour_of_exit hnil hx).1, List.map_map]
      apply List.map_congr_left
      intro v hv
      exact (Thread.read_eq_ok (read_of_mem_tour hv)).2.2

end

end Program

namespace Hosted

open Program

theorem plain : Inventory.Plain [{ id := fullId }] where
  made := List.forall_mem_singleton.mpr (Inventory.made _ _)
  labels := List.forall_mem_singleton.mpr rfl
  short := by decide +kernel

theorem sound : Sound world where
  usable := ⟨by decide, by decide, by decide +kernel⟩
  procRoot := by decide
  cgroupRoot := by decide
  runtime := plain.decodable
  limits _ path _ := legible path

theorem run_completes :
    Sound world ∧ CommandLine.parse ["2", "1"] = .scan [2, 1] false ∧
      Completes world {} ["2", "1"] [2, 1] := by
  have hc : CommandLine.parse ["2", "1"] = .scan [2, 1] false := by decide +kernel
  have hg : ∀ pid ∈ asked world [2, 1] false,
      ∀ m ∈ (Thread.shown world.fs (procRoot world) pid).cgroups, IsPath m.path := by
    decide +kernel
  exact ⟨sound, hc, (completes_iff_legible sound hc hg).mpr
    ⟨by simp, fun pid _ => ⟨legible _, legible _⟩⟩⟩

/-- The host with a process whose command is no text. -/
def spoilt : Surroundings :=
  { world with fs := { fs with read := fun path =>
    if path = "h/proc/1/comm" then .ok [0xff] else fs.read path } }

/-- The host with an entry that looks like a number and is none. -/
def crowded : Surroundings := { world with fs := { fs with list := fun _ => .ok ["2", "²"] } }

/-- One file or one name ends the run before the process of the container is attempted. -/
theorem run_is_stopped :
    (run spoilt {} ["1", "2"]).exit = .error (.notUtf8 ⟨0, [0xff], .invalidStart⟩) ∧
      (tour spoilt {} ["1", "2"]).length = 0 ∧
      ¬Completes spoilt {} ["1", "2"] [1, 2] ∧
      (run crowded {} ["--all"]).exit = .error (.notInteger "²") ∧
      ¬Completes crowded {} ["--all"] (asked crowded [] true) := by
  have hs : (run spoilt {} ["1", "2"]).exit = .error (.notUtf8 ⟨0, [0xff], .invalidStart⟩) ∧
      (tour spoilt {} ["1", "2"]).length = 0 := by
    decide +kernel
  have hc : (run crowded {} ["--all"]).exit = .error (.notInteger "²") := by decide +kernel
  refine ⟨hs.1, hs.2, fun h => ?_, hc, fun h => ?_⟩
  · have hx := h.exit
    rw [hs.1] at hx
    cases hx
  · have hx := h.exit
    rw [hc] at hx
    cases hx

end Hosted
end Attribution
