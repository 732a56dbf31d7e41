import Attribution.Proofs.Cgroup.Limits
import Attribution.Proofs.Files.Opening

namespace Attribution

open FileSystem (Opens)

/-- The cgroup that a key names for a controller. -/
def LimitsKey.cgroup (key : LimitsKey) : String → String
  | "memory" => key.memory
  | "cpu" => key.cpu
  | _ => key.cpuset

/-- All cgroups that a key names. -/
def LimitsKey.cgroups (key : LimitsKey) : List String := [key.memory, key.cpu, key.cpuset]

theorem LimitsKey.cgroup_mem_cgroups (key : LimitsKey) (controller : String) :
    key.cgroup controller ∈ key.cgroups := by
  unfold cgroup cgroups
  split <;> simp

namespace Limits

/-- The place of a file in its controller's own directory. -/
def ownPlace (root controller cgroup file : String) : String :=
  joinPath (joinPath (joinPath root controller) (relative cgroup)) file

/-- The place of a file in the directory that is common to the controllers. -/
def commonPlace (root cgroup file : String) : String :=
  joinPath (joinPath root (relative cgroup)) file

theorem places_eq (root controller cgroup file : String) :
    places root controller cgroup file =
      [ownPlace root controller cgroup file, commonPlace root cgroup file] := rfl

/-- The files up to the first that shows a text. -/
def tried (fs : FileSystem) : List String → List String
  | [] => []
  | path :: paths => path :: if (fs.shownText? path).isSome then [] else tried fs paths

/-- The first text that the files show, without the blanks around it. -/
def shownFirst? (fs : FileSystem) (paths : List String) : Option String :=
  paths.findSome? fun path =>
    (fs.shownText? path).map fun text => String.ofList (Text.strip text.toList)

/-- The files that are opened for a controller's file. -/
def asked (fs : FileSystem) (root controller cgroup file : String) : List String :=
  if cgroup = "" then [] else tried fs (places root controller cgroup file)

/-- The text that a controller's file shows for a cgroup. -/
def shown? (fs : FileSystem) (root controller cgroup file : String) : Option String :=
  if cgroup = "" then none else shownFirst? fs (places root controller cgroup file)

def shownNumber? (fs : FileSystem) (root controller cgroup file : String) : Option Int :=
  number? (shown? fs root controller cgroup file)

/-- Memory is limited by a number above 0 and below the kernel's mark for no limit. -/
def limited : Option Int → Int
  | none => 0
  | some n => if n ≤ 0 ∨ unlimitedMemory ≤ n then 0 else n

/-- Quota and period of one text that holds both. -/
def bandwidthOfMax : Option String → Int × Int
  | none => (0, 0)
  | some text => (positive (splitMax text).1, positive (splitMax text).2)

section

variable (fs : FileSystem) (root cgroup : String)

def shownMemory : Int :=
  limited ((shownNumber? fs root "memory" cgroup "memory.limit_in_bytes").or
    (shownNumber? fs root "memory" cgroup "memory.max"))

def shownShares : Int :=
  positive ((shownNumber? fs root "cpu" cgroup "cpu.shares").or
    (((shownNumber? fs root "cpu" cgroup "cpu.weight").filter (0 < ·)).map sharesOfWeight))

def shownBandwidth : Int × Int :=
  let quota := shownNumber? fs root "cpu" cgroup "cpu.cfs_quota_us"
  let period := shownNumber? fs root "cpu" cgroup "cpu.cfs_period_us"
  if quota = none ∧ period = none then bandwidthOfMax (shown? fs root "cpu" cgroup "cpu.max")
  else (positive quota, positive period)

/-- The list of processors that is counted. -/
def shownCpuset? : Option String :=
  (shown? fs root "cpuset" cgroup "cpuset.effective_cpus").or
    (shown? fs root "cpuset" cgroup "cpuset.cpus.effective")

def askedMemory : List String :=
  asked fs root "memory" cgroup "memory.limit_in_bytes" ++
    if (shownNumber? fs root "memory" cgroup "memory.limit_in_bytes").isSome then []
    else asked fs root "memory" cgroup "memory.max"

def askedShares : List String :=
  asked fs root "cpu" cgroup "cpu.shares" ++
    if (shownNumber? fs root "cpu" cgroup "cpu.shares").isSome then []
    else asked fs root "cpu" cgroup "cpu.weight"

def askedBandwidth : List String :=
  asked fs root "cpu" cgroup "cpu.cfs_quota_us" ++
    (asked fs root "cpu" cgroup "cpu.cfs_period_us" ++
      if shownNumber? fs root "cpu" cgroup "cpu.cfs_quota_us" = none ∧
          shownNumber? fs root "cpu" cgroup "cpu.cfs_period_us" = none then
        asked fs root "cpu" cgroup "cpu.max"
      else [])

def askedCpuset : List String :=
  asked fs root "cpuset" cgroup "cpuset.effective_cpus" ++
    if (shown? fs root "cpuset" cgroup "cpuset.effective_cpus").isSome then []
    else asked fs root "cpuset" cgroup "cpuset.cpus.effective"

end

/-- The files that a reading opens, in order, as long as all of them are text. -/
def askedAll (fs : FileSystem) (root : String) (key : LimitsKey) : List String :=
  askedMemory fs root key.memory ++ (askedShares fs root key.cpu ++
    (askedBandwidth fs root key.cpu ++ askedCpuset fs root key.cpuset))

/-- The limits that the files show. -/
def shown (fs : FileSystem) (root : String) (key : LimitsKey) : Limits where
  memory := shownMemory fs root key.memory
  cpuShares := shownShares fs root key.cpu
  cpuQuota := (shownBandwidth fs root key.cpu).1
  cpuPeriod := (shownBandwidth fs root key.cpu).2
  cpusetCount := ((shownCpuset? fs root key.cpuset).map CpuSet.count).getD 0

section

variable {fs : FileSystem} {root controller cgroup file : String}

theorem opens_readFirst? (paths : List String) :
    fs.Opens (tried fs paths) (shownFirst? fs paths) (readFirst? fs paths) := by
  induction paths with
  | nil => exact .ok none
  | cons path paths ih =>
    rw [tried, shownFirst?, List.findSome?_cons, readFirst?, ← List.singleton_append]
    apply (Opens.text path).bind
    cases fs.shownText? path with
    | none => exact ih
    | some text => exact .ok _

theorem opens_read? : fs.Opens (asked fs root controller cgroup file)
    (shown? fs root controller cgroup file) (read? fs root controller cgroup file) := by
  unfold asked shown? read?
  split
  · exact .ok none
  · exact opens_readFirst? _

theorem opens_readNumber? : fs.Opens (asked fs root controller cgroup file)
    (shownNumber? fs root controller cgroup file) (readNumber? fs root controller cgroup file) :=
  opens_read?.map number?

theorem opens_readMemory : fs.Opens (askedMemory fs root cgroup) (shownMemory fs root cgroup)
    (readMemory fs root cgroup) := by
  unfold askedMemory shownMemory readMemory
  apply opens_readNumber?.bind
  cases shownNumber? fs root "memory" cgroup "memory.limit_in_bytes" with
  | some n => exact .ok (limited (some n))
  | none =>
    apply opens_readNumber?.bind_ok
    cases shownNumber? fs root "memory" cgroup "memory.max" <;> rfl

theorem opens_readShares : fs.Opens (askedShares fs root cgroup) (shownShares fs root cgroup)
    (readShares fs root cgroup) := by
  unfold askedShares shownShares readShares
  apply opens_readNumber?.bind
  cases shownNumber? fs root "cpu" cgroup "cpu.shares" with
  | some n => exact .ok (positive (some n))
  | none => exact opens_readNumber?.bind_ok rfl

theorem opens_readBandwidth : fs.Opens (askedBandwidth fs root cgroup) (shownBandwidth fs root cgroup)
    (readBandwidth fs root cgroup) := by
  unfold askedBandwidth shownBandwidth readBandwidth
  apply opens_readNumber?.bind
  apply opens_readNumber?.bind
  dsimp only
  split
  next =>
    apply opens_read?.bind_ok
    cases shown? fs root "cpu" cgroup "cpu.max" <;> rfl
  next => exact .ok _

theorem opens_readCpusetCount : fs.Opens (askedCpuset fs root cgroup)
    (((shownCpuset? fs root cgroup).map CpuSet.count).getD 0) (readCpusetCount fs root cgroup) := by
  unfold askedCpuset shownCpuset? readCpusetCount
  apply opens_read?.bind
  cases shown? fs root "cpuset" cgroup "cpuset.effective_cpus" with
  | some text => exact .ok (CpuSet.count text)
  | none =>
    apply opens_read?.bind_ok
    cases shown? fs root "cpuset" cgroup "cpuset.cpus.effective" <;> rfl

/-- A reading opens the files it needs and returns the limits they show. -/
theorem opens_read (fs : FileSystem) (root : String) (key : LimitsKey) :
    fs.Opens (askedAll fs root key) (shown fs root key) (read fs root key) := by
  apply opens_readMemory.bind
  apply opens_readShares.bind
  apply opens_readBandwidth.bind
  exact opens_readCpusetCount.bind_ok rfl

end

section

variable {fs : FileSystem} {root path : String} {key : LimitsKey}

theorem mem_places_of_mem_tried {paths : List String} (h : path ∈ tried fs paths) : path ∈ paths := by
  induction paths with
  | nil => cases h
  | cons first paths ih =>
    rw [tried, List.mem_cons] at h
    rcases h with rfl | h
    · exact List.mem_cons_self
    · split at h
      · cases h
      · exact List.mem_cons_of_mem first (ih h)

theorem mem_of_mem_unless {p : Prop} [Decidable p] {paths : List String}
    (h : path ∈ if p then [] else paths) : path ∈ paths := by
  split at h
  · cases h
  · exact h

/-- Only places of the limit files are opened, and none for a cgroup without a path. -/
theorem exists_of_mem_askedAll (h : path ∈ askedAll fs root key) :
    ∃ file ∈ files, key.cgroup file.1 ≠ "" ∧ path ∈ places root file.1 (key.cgroup file.1) file.2 := by
  obtain ⟨file, hf, hm⟩ : ∃ file ∈ files, path ∈ asked fs root file.1 (key.cgroup file.1) file.2 := by
    simp only [askedAll, askedMemory, askedShares, askedBandwidth, askedCpuset, List.mem_append] at h
    rcases h with (h | h) | (h | h) | (h | h | h) | (h | h)
    · exact ⟨("memory", "memory.limit_in_bytes"), by simp [files], h⟩
    · exact ⟨("memory", "memory.max"), by simp [files], mem_of_mem_unless h⟩
    · exact ⟨("cpu", "cpu.shares"), by simp [files], h⟩
    · exact ⟨("cpu", "cpu.weight"), by simp [files], mem_of_mem_unless h⟩
    · exact ⟨("cpu", "cpu.cfs_quota_us"), by simp [files], h⟩
    · exact ⟨("cpu", "cpu.cfs_period_us"), by simp [files], h⟩
    · refine ⟨("cpu", "cpu.max"), by simp [files], ?_⟩
      split at h
      · exact h
      · cases h
    · exact ⟨("cpuset", "cpuset.effective_cpus"), by simp [files], h⟩
    · exact ⟨("cpuset", "cpuset.cpus.effective"), by simp [files], mem_of_mem_unless h⟩
  unfold asked at hm
  split at hm
  next => cases hm
  next hc => exact ⟨file, hf, hc, mem_places_of_mem_tried hm⟩

end

/-- No path under which limits are looked for holds the null character. -/
def Usable (root : String) (key : LimitsKey) : Prop :=
  ∀ cgroup ∈ key.cgroups, cgroup ≠ "" → IsPath root ∧ IsPath cgroup

instance (root : String) (key : LimitsKey) : Decidable (Usable root key) :=
  inferInstanceAs (Decidable (∀ cgroup ∈ key.cgroups, cgroup ≠ "" → IsPath root ∧ IsPath cgroup))

/-- All limit files of a key are text. -/
def Textual (fs : FileSystem) (root : String) (key : LimitsKey) : Prop :=
  ∀ file ∈ files, ∀ path ∈ places root file.1 (key.cgroup file.1) file.2, fs.Legible path

/-- Two file systems show the same texts at all places of some files. -/
def Agree (fs fs' : FileSystem) (root : String) (key : LimitsKey) (files : List (String × String)) :
    Prop :=
  ∀ file ∈ files, ∀ path ∈ places root file.1 (key.cgroup file.1) file.2,
    fs.shownText? path = fs'.shownText? path

section

variable {fs fs' : FileSystem} {root path : String} {key : LimitsKey}

theorem isPath_of_mem_askedAll (hu : Usable root key) (h : path ∈ askedAll fs root key) :
    IsPath path := by
  obtain ⟨file, hf, hc, hp⟩ := exists_of_mem_askedAll h
  obtain ⟨hroot, hcgroup⟩ := hu _ (key.cgroup_mem_cgroups file.1) hc
  exact isPath_of_isPlace hroot hcgroup ⟨file, hf, hp⟩

theorem legible_of_mem_askedAll (ht : Textual fs root key) (h : path ∈ askedAll fs root key) :
    fs.Legible path := by
  obtain ⟨file, hf, _, hp⟩ := exists_of_mem_askedAll h
  exact ht file hf path hp

theorem read_of_textual (ht : Textual fs root key) (hu : Usable root key) :
    read fs root key = .ok (shown fs root key) :=
  (opens_read fs root key).eq_ok_iff.mpr
    ⟨fun _ hp => ⟨isPath_of_mem_askedAll hu hp, legible_of_mem_askedAll ht hp⟩, rfl⟩

theorem shownFirst?_congr {paths : List String}
    (h : ∀ path ∈ paths, fs.shownText? path = fs'.shownText? path) :
    shownFirst? fs paths = shownFirst? fs' paths := by
  unfold shownFirst?
  induction paths with
  | nil => rfl
  | cons path paths ih =>
    obtain ⟨hpath, hpaths⟩ := List.forall_mem_cons.mp h
    rw [List.findSome?_cons, List.findSome?_cons, hpath, ih hpaths]

theorem shown?_congr {files : List (String × String)} (h : Agree fs fs' root key files)
    {controller file : String} (hm : (controller, file) ∈ files) :
    shown? fs root controller (key.cgroup controller) file =
      shown? fs' root controller (key.cgroup controller) file := by
  unfold shown?
  rw [shownFirst?_congr (h _ hm)]

end

end Limits

namespace SingleCgroup

/-- One cgroup for all controllers. -/
def key : LimitsKey := ⟨"0123456789ab", "/c", "/c", "/c"⟩

end SingleCgroup
end Attribution
