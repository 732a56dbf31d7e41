import Attribution.Proofs.Cgroup.Layout
import Attribution.Proofs.Containerd.Inventory
import Attribution.Proofs.Engine.Offer

namespace Attribution

/-- The only container that a fragment of an id fits has that id if any container has it. -/
theorem id_eq_iff_exists {containers : List Wire.Container} {container : Wire.Container}
    {id : List Char} {n : Nat}
    (h : containers.filter (containsFragment (String.ofList (id.take n))) = [container]) :
    container.id.toList = id ↔ ∃ c ∈ containers, c.id.toList = id := by
  constructor
  · intro hc
    have hm : container ∈ [container] := List.mem_singleton_self container
    rw [← h] at hm
    exact ⟨container, List.mem_of_mem_filter hm, hc⟩
  · rintro ⟨c, hm, hc⟩
    have hf := List.mem_filter.mpr ⟨hm, containsFragment_of_toList hc n⟩
    rw [h] at hf
    obtain rfl := List.mem_singleton.mp hf
    exact hc

/-- An attempt that succeeds has found the one container whose id contains the short form of the id
in the cgroups. It is the container of that id if there is one. -/
theorem resolve_finds_only_container {engine : Engine} {service : RuntimeService}
    {containers : List Wire.Container} {limits : LimitsSource} {network : Network} {cache : Cache}
    {thread : Thread} {found : CgroupMatch} {before id : List Char}
    (hservice : FiltersById service containers)
    (hmatch : CgroupLayout.match? containerdLayout thread.cgroups = some found)
    (hpath : found.path.toList = before ++ "/default/".toList ++ id)
    (hid : isContainerId id = true)
    (hanswer : (engine.resolve service limits network cache thread).answer = .ok true) :
    ∃ container network',
      engine.resolve service limits network cache thread =
        engine.complete limits network' cache thread found.containerId container ∧
      containers.filter (containsFragment (String.ofList (id.take shortIdLength))) = [container] ∧
      (container.id.toList = id ↔ ∃ c ∈ containers, c.id.toList = id) ∧
      ∀ hearing ∈ (engine.resolve service limits network cache thread).hearings,
        hearing.record.fullId = container.id := by
  obtain ⟨⟨record, owner⟩, ho⟩ :
      ∃ offer, engine.offer? service limits network thread = some offer := by
    rw [← Option.isSome_iff_exists, Option.isSome_iff_ne_none]
    intro hn
    exact (Engine.resolve_of_offer?_none hn).1 hanswer
  obtain ⟨shown, container, _, hc, _, _, rfl⟩ := Engine.offer?_eq_some ho
  obtain ⟨found', client, response, hm, _, rfl, hr, hone⟩ := Engine.container?_eq_some hc
  obtain rfl : found' = found := Option.some.inj (hm.symm.trans hmatch)
  have hshort := CgroupLayout.containerId_of_match? hmatch hid hpath
  have hlength : found'.containerId.length < 2 ^ 28 := by
    have ht : (id.take shortIdLength).length ≤ 12 := List.length_take_le 12 id
    rw [hshort, String.length_ofList]
    omega
  have honly := Client.containers_of_listByFragment hservice hlength hr
  rw [hone, hshort] at honly
  obtain ⟨network', hresolve⟩ := Engine.resolve_of_container? hc limits cache
  refine ⟨container, network', hresolve, honly.symm, id_eq_iff_exists honly.symm, ?_⟩
  rw [(Engine.resolve_of_offer? ho cache).2.2]
  exact fun hearing hh => Engine.fullId_of_mem_publish hh

namespace Namesake

def digits : String := "0123456789abcdef0123456789abcdef0123456789abcdef0123456789abcdef"

def thread : Thread := { tid := 1, cgroups := [⟨"cpu", "/default/" ++ digits⟩] }

def channel : Channel := ⟨0, "unix:///run/containerd.sock", Client.channelOptions⟩

def network : Network := { channels := ⟨1, [channel]⟩ }

def engine : Engine :=
  ⟨{}, some ⟨"/run/containerd.sock", channel, "default", 1000, .bound⟩⟩

def runtime (containers : List Wire.Container) : RuntimeService :=
  fun _ earlier request => Inventory.answer { containers } earlier request

def resolve (containers : List Wire.Container) : Resolution :=
  engine.resolve (runtime containers) (fun _ => .ok {}) network {} thread

theorem match?_thread : CgroupLayout.match? containerdLayout thread.cgroups =
    some ⟨"0123456789ab", "/default/" ++ digits⟩ := by decide +kernel

/-- The container that the cgroups show, among others that the fragment does not fit. -/
def neighbours : List Wire.Container :=
  [{ id := "0123456789aabcdef" }, { id := digits }, { id := "web", image := "0123456789ab" }]

theorem neighbours_plain : Inventory.Plain neighbours where
  made := by
    simp only [neighbours, List.forall_mem_cons]
    exact ⟨Inventory.made _ _, Inventory.made _ _, Inventory.made _ _, by simp⟩
  labels := by simp [neighbours]
  short := by decide +kernel

theorem resolve_finds_exact :
    FiltersById (runtime neighbours) neighbours ∧
      (resolve neighbours).answer = .ok true ∧
      ∃ container network', resolve neighbours =
          engine.complete (fun _ => .ok {}) network' {} thread "0123456789ab" container ∧
        neighbours.filter
            (containsFragment (String.ofList (digits.toList.take shortIdLength))) = [container] ∧
        (container.id.toList = digits.toList ↔ ∃ c ∈ neighbours, c.id.toList = digits.toList) ∧
        ∀ hearing ∈ (resolve neighbours).hearings, hearing.record.fullId = container.id := by
  have hservice : FiltersById (runtime neighbours) neighbours := neighbours_plain.filtersById
  have hanswer : (resolve neighbours).answer = .ok true := by decide +kernel
  have hpath : ("/default/" ++ digits).toList = [] ++ "/default/".toList ++ digits.toList := by
    rw [String.toList_append, List.nil_append]
  exact ⟨hservice, hanswer,
    resolve_finds_only_container hservice match?_thread hpath (by decide) hanswer⟩

theorem namesake_plain : Inventory.Plain [{ id := "web-0123456789ab" }] where
  made := List.forall_mem_singleton.mpr (Inventory.made _ _)
  labels := List.forall_mem_singleton.mpr rfl
  short := by decide +kernel

/-- A container whose id merely contains the fragment, while none has the id in the cgroups. -/
theorem resolve_takes_namesake :
    FiltersById (runtime [{ id := "web-0123456789ab" }]) [{ id := "web-0123456789ab" }] ∧
      CgroupLayout.match? containerdLayout thread.cgroups =
        some ⟨"0123456789ab", "/default/" ++ digits⟩ ∧
      isContainerId digits.toList = true ∧
      (resolve [{ id := "web-0123456789ab" }]).answer = .ok true ∧
      ((resolve [{ id := "web-0123456789ab" }]).cache.get? ("0123456789ab", .containerd)).map
          (·.fullId) = some "web-0123456789ab" ∧
      "web-0123456789ab" ≠ digits := by
  exact ⟨namesake_plain.filtersById, match?_thread, by decide, by decide +kernel⟩

end Namesake
end Attribution
