import Attribution.Containerd.Inventory
import Attribution.Proofs.Cache.Emission
import Attribution.Proofs.Event.Cleaning
import Attribution.Proofs.Event.Stream
import Attribution.Proofs.Files.Access
import Attribution.Proofs.Program.Visit
import Attribution.Proofs.Text.Utf8

namespace Attribution

namespace Cache

variable {cache : Cache} {record : ContainerRecord}

theorem knows_extend (h : cache.knows record.key = false) (key : ContainerKey) :
    (cache.extend record).knows key = (cache.knows key || key == record.key) := by
  have hp : (cache.extend record).isPending key = cache.isPending key := rfl
  rw [knows, knows, get?_extend (get?_eq_none_of_knows h), hp]
  by_cases hk : key = record.key
  · simp [hk]
  · simp [hk]

end Cache

/-- The key under which a container of the runtime is stored. -/
def containerKey (id : String) : ContainerKey := (id, .containerd)

/-- What a visit brings: nothing if it fails or finds a container that is known, else an event under
every hostname. -/
inductive Telling (limits : LimitsSource) (hostnames : List String) (cache : Cache) (v : Visit) : Prop
  | failed (resolved : v.resolved = false) (same : v.resolution.cache = cache)
    (events : v.events = [])
  | again (resolved : v.resolved = true) (known : cache.knows (containerKey v.containerId) = true)
    (same : v.resolution.cache = cache) (events : v.events = [])
  | fresh (record : ContainerRecord) (key : record.key = containerKey v.containerId)
    (short : IsShortId record.id) (resolved : v.resolved = true)
    (limited : ∃ key, limits key = .ok record.limits)
    (unknown : cache.knows (containerKey v.containerId) = false)
    (stored : v.resolution.cache = cache.extend record)
    (events : v.events =
      if Event.announceable record (some v.thread) then
        hostnames.map (Event.build · record (some v.thread))
      else [])

/-- The event is about the process of the visit: it shows its numbers and its command, cleaned. -/
def Visit.IsShown (v : Visit) (e : Event) : Prop :=
  ∃ t, e.thread = some t ∧ Event.CleanedThread v.thread t

section

variable {limits : LimitsSource} {hostnames : List String} {cache : Cache} {v : Visit}

theorem Outcome.telling (h : Outcome limits cache v.thread v.resolution)
    (hl : cache.listeners = hostnames.map Listener.emitting) :
    Telling limits hostnames cache v := by
  cases h with
  | failed answer same silent =>
    have hr : v.resolved = false := by
      by_contra hn
      exact answer (Visit.resolved_iff.mp (by simpa using hn))
    exact .failed hr same (by simp [Visit.events, silent])
  | known id short answer owner knows same silent =>
    have hid : v.containerId = id := congrArg Thread.containerId owner
    exact .again (Visit.resolved_iff.mpr answer) (hid ▸ knows) same (by simp [Visit.events, silent])
  | published record short answer owner made limited fresh stored heard =>
    have hid : v.containerId = record.id := congrArg Thread.containerId owner
    have hkey : record.key = containerKey v.containerId := hid ▸ made.key_eq
    refine .fresh record hkey short (Visit.resolved_iff.mpr answer) limited (hkey ▸ fresh) stored ?_
    have hextended : (cache.extend record).listeners = hostnames.map Listener.emitting := hl
    have he := Cache.events_announce_emitting hextended record true (some v.resolution.thread)
    rw [Visit.events, heard, he, owner]
    -- An event does not tell which container its thread belongs to.
    rfl

namespace Telling

theorem knows_mono (h : Telling limits hostnames cache v) {id : String}
    (hk : cache.knows (containerKey id) = true) :
    v.resolution.cache.knows (containerKey id) = true := by
  cases h with
  | failed _ same _ => rwa [same]
  | again _ _ same _ => rwa [same]
  | fresh record key _ _ _ unknown stored _ =>
    rw [stored, Cache.knows_extend (key ▸ unknown), hk, Bool.true_or]

theorem knows_of_resolved (h : Telling limits hostnames cache v) (hr : v.resolved = true) :
    v.resolution.cache.knows (containerKey v.containerId) = true := by
  cases h with
  | failed resolved _ _ => simp [resolved] at hr
  | again _ known same _ => rwa [same]
  | fresh record key _ _ _ unknown stored _ =>
    rw [stored, Cache.knows_extend (key ▸ unknown), key, beq_self_eq_true, Bool.or_true]

theorem of_mem_events (h : Telling limits hostnames cache v) {e : Event} (he : e ∈ v.events) :
    v.resolved = true ∧ cache.knows (containerKey v.containerId) = false ∧
      e.container.id = v.containerId ∧ v.IsShown e ∧ e.Sendable := by
  cases h with
  | failed _ _ events => simp [events] at he
  | again _ _ _ events => simp [events] at he
  | fresh record key short resolved _ unknown _ events =>
    rw [events] at he
    split at he
    next hw =>
      obtain ⟨hostname, _, rfl⟩ := List.mem_map.mp he
      have hid : record.id = v.containerId := congrArg Prod.fst key
      refine ⟨resolved, unknown, ?_, ?_, hw, Assoc.nodup_keys_ofPairs _⟩
      · exact (Event.id_build short hostname _).trans hid
      · exact ⟨_, rfl, Event.cleaned_sanitize 256 _, rfl, rfl⟩
    next => simp at he

end Telling

theorem Chain.telling_cons {vs : List Visit} (h : Chain limits cache (v :: vs))
    (hl : cache.listeners = hostnames.map Listener.emitting) :
    Telling limits hostnames cache v ∧ Chain limits v.resolution.cache vs ∧
      v.resolution.cache.listeners = hostnames.map Listener.emitting := by
  cases h with
  | cons ho ht => exact ⟨ho.telling hl, ht, ho.listeners_eq.trans hl⟩

end

namespace Hosted

def fullId : String := "0123456789abcdef0123456789abcdef0123456789abcdef0123456789abcdef"

def texts : Assoc String String :=
  [("h/proc/2/comm", "nginx\n"), ("h/proc/2/cgroup", "1:cpu,memory,cpuset:\n0::/default/" ++ fullId)]

/-- A host on which only process 2 has files. It belongs to the one container that runs there. -/
def fs : FileSystem where
  isSocket path := .ok (path == "h/containerd.sock")
  read path := ((texts.find? path).map fun text => .ok (Utf8.encode text.toList)).getD (.error .missing)
  list _ := .ok ["self", "2"]

def runtime : RuntimeService :=
  fun _ earlier request => Inventory.answer { containers := [{ id := fullId }] } earlier request

def world : Surroundings :=
  ⟨{ hostRoot := "h", containerdSockets := [.text "/containerd.sock"] }, fs, runtime, "node"⟩

theorem exists_of_read {path : String} {bytes : List UInt8} (h : fs.read path = .ok bytes) :
    ∃ p ∈ texts, bytes = Utf8.encode p.2.toList := by
  cases hf : texts.find? path with
  | none => simp [fs, hf] at h
  | some text =>
    simp only [fs, hf, Option.map_some, Option.getD_some, Except.ok.injEq] at h
    exact ⟨(path, text), Assoc.mem_of_find? hf, h.symm⟩

theorem legible (path : String) : fs.Legible path := by
  intro bytes hr
  obtain ⟨p, _, rfl⟩ := exists_of_read hr
  exact ⟨_, Utf8.decode_encode _⟩

end Hosted

end Attribution
