import Attribution.Container.Thread
import Attribution.Proofs.Cgroup.Listing

namespace Attribution

namespace Hierarchy

/-- The name of a controller is not empty and has no mark of a named hierarchy. -/
def IsController (name : String) : Prop := name ≠ "" ∧ ¬"name=".toList <+: name.toList

instance (name : String) : Decidable (IsController name) :=
  inferInstanceAs (Decidable (name ≠ "" ∧ ¬"name=".toList <+: name.toList))

/-- The first hierarchy of the controller itself; if there is none, the first unified one. -/
def rightful (controller : String) (hs : List Hierarchy) : Option Hierarchy :=
  (hs.find? fun h => controller ∈ h.controllers).or (hs.find? fun h => h.controllers = [])

/-- The hierarchy that answers for a controller when the named ones answer under their names. -/
def answering (controller : String) (hs : List Hierarchy) : Option Hierarchy :=
  (hs.find? fun h => controller ∈ h.controllers ∨ "name=" ++ controller ∈ h.controllers).or
    (hs.find? fun h => h.controllers = [] ∨ "name=" ∈ h.controllers)

/-- The path in a hierarchy; without one it is empty. -/
def pathIn (h : Option Hierarchy) : String := (h.map path).getD ""

variable {h : Hierarchy} {hs : List Hierarchy} {controller name : String}

theorem nameOf_eq_iff (hm : ¬"name=".toList <+: name.toList) :
    nameOf controller = name ↔ controller = name ∨ controller = "name=" ++ name := by
  constructor
  · rintro rfl
    by_cases hc : "name=".toList <+: controller.toList
    · obtain ⟨rest, hr⟩ := hc
      have hs : controller = "name=" ++ String.ofList rest := by
        have hl : (String.ofList rest).toList = rest := String.toList_ofList
        rw [← String.toList_inj, String.toList_append, hl, hr]
      exact .inr (by rw [hs, nameOf_marked])
    · exact .inl (nameOf_of_not_marked hc).symm
  · rintro (rfl | rfl)
    · exact nameOf_of_not_marked hm
    · exact nameOf_marked name

theorem mem_map_nameOf_iff {controllers : List String} (hm : ¬"name=".toList <+: name.toList) :
    name ∈ controllers.map nameOf ↔ name ∈ controllers ∨ "name=" ++ name ∈ controllers := by
  simp only [List.mem_map, nameOf_eq_iff hm]
  constructor
  · rintro ⟨controller, hc, rfl | rfl⟩
    · exact .inl hc
    · exact .inr hc
  · rintro (hc | hc)
    · exact ⟨name, hc, .inl rfl⟩
    · exact ⟨"name=" ++ name, hc, .inr rfl⟩

theorem mem_subsystems_iff (hc : IsController controller) :
    controller ∈ h.subsystems ↔
      controller ∈ h.controllers ∨ "name=" ++ controller ∈ h.controllers := by
  unfold subsystems
  split
  next hn => simp [hn, hc.1]
  next => exact mem_map_nameOf_iff hc.2

theorem empty_mem_subsystems_iff :
    "" ∈ h.subsystems ↔ h.controllers = [] ∨ "name=" ∈ h.controllers := by
  have hempty : "" ∉ h.controllers := fun hm => (h.controllers_field "" hm).1 rfl
  unfold subsystems
  split
  next hn => simp [hn]
  next hn =>
    rw [mem_map_nameOf_iff (by decide), or_iff_right hempty, or_iff_right hn]
    rfl

theorem find?_memberships (subsystem : String) :
    (h.memberships.find? fun m => m.subsystem == subsystem) =
      if subsystem ∈ h.subsystems then some ⟨subsystem, h.path⟩ else none := by
  rw [memberships, List.find?_map]
  split
  next hm =>
    cases hf : h.subsystems.find?
        ((fun m : Membership => m.subsystem == subsystem) ∘ fun s => ⟨s, h.path⟩) with
    | none => simpa using List.find?_eq_none.mp hf subsystem hm
    | some s =>
      obtain rfl : s = subsystem := by simpa using List.find?_some hf
      rfl
  next hm =>
    rw [Option.map_eq_none_iff, List.find?_eq_none]
    rintro s hs he
    exact hm (eq_of_beq he ▸ hs)

theorem find?_flatMap_memberships (subsystem : String) :
    ((hs.flatMap memberships).find? fun m => m.subsystem == subsystem) =
      (hs.find? fun h => subsystem ∈ h.subsystems).map fun h => ⟨subsystem, h.path⟩ := by
  induction hs with
  | nil => rfl
  | cons h hs ih =>
    rw [List.flatMap_cons, List.find?_append, find?_memberships, ih, List.find?_cons]
    by_cases hm : subsystem ∈ h.subsystems
    · simp [hm]
    · simp [hm]

end Hierarchy

namespace Membership

variable {memberships : List Membership}

theorem unifiedPath_eq (hp : ∀ m ∈ memberships, m.path ≠ "") : unifiedPath memberships =
    ((memberships.find? fun m => m.subsystem == "").map Membership.path).getD "" := by
  induction memberships with
  | nil => rfl
  | cons m memberships ih =>
    obtain ⟨hm, hlater⟩ := List.forall_mem_cons.mp hp
    rw [unifiedPath, ih hlater]
    by_cases hs : m.subsystem = ""
    · rw [if_pos ⟨hs, hm⟩, List.find?_cons_of_pos (by simpa using hs)]
      rfl
    · rw [if_neg fun h => hs h.1, List.find?_cons_of_neg (by simpa using hs)]

/-- Where every path has text, the path of a controller is that of its first membership or else of the
first unified one. -/
theorem pathOf_eq (hp : ∀ m ∈ memberships, m.path ≠ "") (subsystem : String) :
    pathOf memberships subsystem =
      (((memberships.find? fun m => m.subsystem == subsystem).or
        (memberships.find? fun m => m.subsystem == "")).map Membership.path).getD "" := by
  rw [pathOf, unifiedPath_eq hp]
  cases memberships.find? fun m => m.subsystem == subsystem <;> rfl

end Membership

namespace Hierarchy

variable {h : Hierarchy} {hs : List Hierarchy} {controller : String}

theorem path_of_mem_memberships {m : Membership} (hm : m ∈ h.memberships) : m.path = h.path := by
  obtain ⟨subsystem, _, rfl⟩ := List.mem_map.mp hm
  rfl

theorem answering_eq (hc : IsController controller) (hs : List Hierarchy) : answering controller hs =
    (hs.find? fun h => controller ∈ h.subsystems).or (hs.find? fun h => "" ∈ h.subsystems) := by
  simp only [answering, mem_subsystems_iff hc, empty_mem_subsystems_iff]

theorem pathOf_memberships (hc : IsController controller) (hp : ∀ h ∈ hs, h.path ≠ "") :
    Membership.pathOf (hs.flatMap memberships) controller = pathIn (answering controller hs) := by
  have hpaths : ∀ m ∈ hs.flatMap memberships, m.path ≠ "" := by
    intro m hm
    obtain ⟨h, hh, hm⟩ := List.mem_flatMap.mp hm
    rw [path_of_mem_memberships hm]
    exact hp h hh
  rw [Membership.pathOf_eq hpaths, find?_flatMap_memberships, find?_flatMap_memberships,
    answering_eq hc, pathIn]
  cases hs.find? fun h => controller ∈ h.subsystems with
  | some h => rfl
  | none => cases hs.find? fun h => "" ∈ h.subsystems <;> rfl

theorem find?_eq_of_imp {α : Type} {p q : α → Bool} {l : List α} (hqp : ∀ a, q a = true → p a = true)
    (h : ∀ a ∈ l.find? p, q a = true) : l.find? p = l.find? q := by
  cases hp : l.find? p with
  | none =>
    exact (List.find?_eq_none.mpr fun a ha hq => List.find?_eq_none.mp hp a ha (hqp a hq)).symm
  | some a =>
    obtain ⟨_, before, after, rfl, hb⟩ := List.find?_eq_some_iff_append.mp hp
    refine (List.find?_eq_some_iff_append.mpr ⟨h a hp, before, after, rfl, fun b hm => ?_⟩).symm
    have hn := hb b hm
    cases hq : q b with
    | false => rfl
    | true => simp [hqp b hq] at hn

theorem of_mem_rightful (hm : h ∈ rightful controller hs) :
    controller ∈ h.controllers ∨ h.controllers = [] := by
  rcases Option.or_eq_some_iff.mp hm with hf | ⟨_, hf⟩
  · exact .inl (by simpa using List.find?_some hf)
  · exact .inr (by simpa using List.find?_some hf)

/-- The right hierarchy answers unless a named one stands in for it. -/
theorem answering_eq_rightful_iff : answering controller hs = rightful controller hs ↔
    ∀ h ∈ answering controller hs, controller ∈ h.controllers ∨ h.controllers = [] := by
  refine ⟨fun he h hm => of_mem_rightful (he ▸ hm), fun hright => ?_⟩
  unfold answering rightful at *
  have hown : (hs.find? fun h => controller ∈ h.controllers ∨ "name=" ++ controller ∈ h.controllers) =
      hs.find? fun h => controller ∈ h.controllers := by
    refine find?_eq_of_imp (by simp +contextual) fun h hf => ?_
    have hanswers := List.find?_some hf
    rcases hright h (by rw [Option.mem_def.mp hf]; rfl) with hc | hc
    · simpa using hc
    · simp [hc] at hanswers
  rw [hown] at hright ⊢
  cases ho : hs.find? fun h => controller ∈ h.controllers with
  | some h => rfl
  | none =>
    rw [Option.none_or, Option.none_or]
    refine find?_eq_of_imp (by simp +contextual) fun h hf => ?_
    rcases hright h (by rw [ho]; exact hf) with hc | hc
    · have hnot := List.find?_eq_none.mp ho h (List.mem_of_find?_eq_some hf)
      simp [hc] at hnot
    · simpa using hc

end Hierarchy

open Hierarchy in
/-- The path of a controller is that of the hierarchy that answers for it; this is the right one unless
it is there by its name only. -/
theorem Thread.cgroup_right_unless_named (thread : Thread) (listing : Listing) (controller : String)
    (hc : IsController controller) (hp : ∀ h ∈ listing.hierarchies, h.path ≠ "") :
    { thread with cgroups := Membership.parse listing.text }.cgroup controller =
        pathIn (answering controller listing.hierarchies) ∧
      (answering controller listing.hierarchies = rightful controller listing.hierarchies ↔
        ∀ h ∈ answering controller listing.hierarchies,
          controller ∈ h.controllers ∨ h.controllers = []) := by
  refine ⟨?_, answering_eq_rightful_iff⟩
  rw [Thread.cgroup, listing.parse_text]
  exact pathOf_memberships hc hp

namespace NamedHierarchy

open Hierarchy

def own : Hierarchy := { number := "1", controllers := ["cpu", "cpuacct"], path := "/own" }

/-- A hierarchy without controllers that has the name of one. -/
def named : Hierarchy := { number := "2", controllers := ["name=cpu"], path := "/named" }

def unified : Hierarchy := { number := "0", controllers := [], path := "/unified" }

def listing (hs : List Hierarchy) : Listing where
  rows := hs.map fun h => ⟨.hierarchy h, "\n", .inr ⟨'\n', rfl, rfl⟩⟩

def thread (hs : List Hierarchy) : Thread where
  tid := 1
  cgroups := Membership.parse (listing hs).text

/-- Behind the controller's own hierarchy the named one does no harm. -/
theorem own_answers : IsController "cpu" ∧
    (∀ h ∈ (listing [own, named, unified]).hierarchies, h.path ≠ "") ∧
    (thread [own, named, unified]).cgroup "cpu" = "/own" ∧
    rightful "cpu" [own, named, unified] = some own := by
  have hc : IsController "cpu" := by decide +kernel
  have hp : ∀ h ∈ (listing [own, named, unified]).hierarchies, h.path ≠ "" := by decide +kernel
  obtain ⟨hcgroup, hright⟩ := Thread.cgroup_right_unless_named { tid := 1 } _ "cpu" hc hp
  have ha : answering "cpu" (listing [own, named, unified]).hierarchies = some own := rfl
  refine ⟨hc, hp, hcgroup, (hright.mpr ?_).symm.trans ha⟩
  rw [ha]
  decide

/-- Before it the named one takes its place, as it does that of the unified hierarchy. -/
theorem named_stands_in :
    (thread [named, own]).cgroup "cpu" = "/named" ∧ rightful "cpu" [named, own] = some own ∧
      (thread [named, unified]).cgroup "cpu" = "/named" ∧
      rightful "cpu" [named, unified] = some unified ∧
      own.path ≠ "/named" ∧ unified.path ≠ "/named" := by
  decide +kernel

end NamedHierarchy
end Attribution
