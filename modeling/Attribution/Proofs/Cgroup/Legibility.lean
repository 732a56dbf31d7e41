import Attribution.Proofs.Cgroup.Shown

namespace Attribution

namespace Limits

/-- The files that decide each limit. -/
def memoryFiles : List (String × String) :=
  [("memory", "memory.limit_in_bytes"), ("memory", "memory.max")]

def sharesFiles : List (String × String) := [("cpu", "cpu.shares"), ("cpu", "cpu.weight")]

def bandwidthFiles : List (String × String) :=
  [("cpu", "cpu.cfs_quota_us"), ("cpu", "cpu.cfs_period_us"), ("cpu", "cpu.max")]

def cpusetFiles : List (String × String) :=
  [("cpuset", "cpuset.effective_cpus"), ("cpuset", "cpuset.cpus.effective")]

/-- Every limit is the same in both if the files that decide it show the same. -/
structure Separate (fs fs' : FileSystem) (root : String) (key : LimitsKey) (l l' : Limits) : Prop where
  memory : Agree fs fs' root key memoryFiles → l.memory = l'.memory
  cpuShares : Agree fs fs' root key sharesFiles → l.cpuShares = l'.cpuShares
  bandwidth : Agree fs fs' root key bandwidthFiles →
    l.cpuQuota = l'.cpuQuota ∧ l.cpuPeriod = l'.cpuPeriod
  cpusetCount : Agree fs fs' root key cpusetFiles → l.cpusetCount = l'.cpusetCount

section

variable {fs fs' : FileSystem} {root : String} {key : LimitsKey}

theorem shownMemory_congr (h : Agree fs fs' root key memoryFiles) :
    shownMemory fs root key.memory = shownMemory fs' root key.memory := by
  have hlimit : shown? fs root "memory" key.memory "memory.limit_in_bytes" = _ :=
    shown?_congr h (by simp [memoryFiles])
  have hmax : shown? fs root "memory" key.memory "memory.max" = _ :=
    shown?_congr h (by simp [memoryFiles])
  unfold shownMemory shownNumber?
  rw [hlimit, hmax]
  rfl

theorem shownShares_congr (h : Agree fs fs' root key sharesFiles) :
    shownShares fs root key.cpu = shownShares fs' root key.cpu := by
  have hshares : shown? fs root "cpu" key.cpu "cpu.shares" = _ :=
    shown?_congr h (by simp [sharesFiles])
  have hweight : shown? fs root "cpu" key.cpu "cpu.weight" = _ :=
    shown?_congr h (by simp [sharesFiles])
  unfold shownShares shownNumber?
  rw [hshares, hweight]
  rfl

theorem shownBandwidth_congr (h : Agree fs fs' root key bandwidthFiles) :
    shownBandwidth fs root key.cpu = shownBandwidth fs' root key.cpu := by
  have hquota : shown? fs root "cpu" key.cpu "cpu.cfs_quota_us" = _ :=
    shown?_congr h (by simp [bandwidthFiles])
  have hperiod : shown? fs root "cpu" key.cpu "cpu.cfs_period_us" = _ :=
    shown?_congr h (by simp [bandwidthFiles])
  have hmax : shown? fs root "cpu" key.cpu "cpu.max" = _ :=
    shown?_congr h (by simp [bandwidthFiles])
  unfold shownBandwidth shownNumber?
  rw [hquota, hperiod, hmax]
  rfl

theorem shownCpuset?_congr (h : Agree fs fs' root key cpusetFiles) :
    shownCpuset? fs root key.cpuset = shownCpuset? fs' root key.cpuset := by
  have hcpus : shown? fs root "cpuset" key.cpuset "cpuset.effective_cpus" = _ :=
    shown?_congr h (by simp [cpusetFiles])
  have hlater : shown? fs root "cpuset" key.cpuset "cpuset.cpus.effective" = _ :=
    shown?_congr h (by simp [cpusetFiles])
  unfold shownCpuset?
  rw [hcpus, hlater]
  rfl

theorem separate_shown (fs fs' : FileSystem) (root : String) (key : LimitsKey) :
    Separate fs fs' root key (shown fs root key) (shown fs' root key) where
  memory := shownMemory_congr
  cpuShares := shownShares_congr
  bandwidth h := ⟨congrArg Prod.fst (shownBandwidth_congr h), congrArg Prod.snd (shownBandwidth_congr h)⟩
  cpusetCount h := congrArg (fun cpus => (cpus.map CpuSet.count).getD 0) (shownCpuset?_congr h)

end

/-- The limits that are shown are read if and only if the files that are opened are text, and else the
first of these that is none stops the reading. No limit depends on files other than its own. -/
theorem read_iff_legible (fs : FileSystem) (root : String) (key : LimitsKey) (hu : Usable root key) :
    (∀ l, read fs root key = .ok l ↔
        (∀ path ∈ askedAll fs root key, fs.Legible path) ∧ l = shown fs root key) ∧
      (∀ fault, read fs root key = .error fault → ∃ before path after bytes e,
        askedAll fs root key = before ++ path :: after ∧ (∀ p ∈ before, fs.Legible p) ∧
          fs.read path = .ok bytes ∧ Utf8.decode bytes = .error e ∧ fault = .notUtf8 e) ∧
      ∀ fs' l l', read fs root key = .ok l → read fs' root key = .ok l' →
        Separate fs fs' root key l l' := by
  refine ⟨fun l => ?_, ?_, ?_⟩
  · have hpaths : (∀ path ∈ askedAll fs root key, IsPath path ∧ fs.Legible path) ↔
        ∀ path ∈ askedAll fs root key, fs.Legible path :=
      ⟨fun h path hp => (h path hp).2, fun h path hp => ⟨isPath_of_mem_askedAll hu hp, h path hp⟩⟩
    rw [(opens_read fs root key).eq_ok_iff, hpaths]
  · intro fault hf
    obtain ⟨before, path, after, ha, hb, hs⟩ := (opens_read fs root key).eq_error_iff.mp hf
    have hm : path ∈ askedAll fs root key := by simp [ha]
    obtain ⟨bytes, e, hr, hd, he⟩ := FileSystem.notUtf8_of_isPath (isPath_of_mem_askedAll hu hm) hs
    exact ⟨before, path, after, bytes, e, ha, fun p hp => (hb p hp).2, hr, hd, he⟩
  · intro fs' l l' hl hl'
    obtain ⟨_, rfl⟩ := (opens_read fs root key).eq_ok_iff.mp hl
    obtain ⟨_, rfl⟩ := (opens_read fs' root key).eq_ok_iff.mp hl'
    exact separate_shown fs fs' root key

end Limits

namespace SpoiltLimit

open Limits
open SingleCgroup (key)

/-- The limit of the memory is 7, and one file is no text. -/
def fs (spoilt : String) : FileSystem :=
  let texts := FileSystem.ofTexts [("r/memory/c/memory.limit_in_bytes", "7\n")]
  { texts with read := fun path => if path = spoilt then .ok [0xff] else texts.read path }

theorem legible_fs {spoilt path : String} (h : path ≠ spoilt) : (fs spoilt).Legible path := by
  intro bytes hr
  simp only [fs, if_neg h] at hr
  exact FileSystem.legible_ofTexts _ path bytes hr

/-- A spoilt file is harmless if the reading does not come to it. -/
theorem read_past_spoilt : Usable "r" key ∧
    read (fs "r/memory/c/memory.max") "r" key = .ok { memory := 7 } := by
  have hu : Usable "r" key := by decide
  have hasked : "r/memory/c/memory.max" ∉ askedAll (fs "r/memory/c/memory.max") "r" key := by
    decide +kernel
  have hshown : shown (fs "r/memory/c/memory.max") "r" key = { memory := 7 } := by decide +kernel
  refine ⟨hu, ((read_iff_legible _ _ _ hu).1 _).mpr ⟨fun path hp => ?_, hshown.symm⟩⟩
  exact legible_fs fun he => hasked (he ▸ hp)

/-- One file that is no text stops the reading of all limits. -/
theorem read_stops_at_spoilt : IsPath "r" ∧ (∀ cgroup ∈ key.cgroups, IsPath cgroup) ∧
    read (fs "r/memory/c/memory.limit_in_bytes") "r" key =
      .error (.notUtf8 ⟨0, [0xff], .invalidStart⟩) ∧
    ¬∃ l, read (fs "r/memory/c/memory.limit_in_bytes") "r" key = .ok l := by
  have hr : read (fs "r/memory/c/memory.limit_in_bytes") "r" key =
      .error (.notUtf8 ⟨0, [0xff], .invalidStart⟩) := by decide +kernel
  refine ⟨by decide, by decide, hr, ?_⟩
  rintro ⟨l, hl⟩
  rw [hr] at hl
  cases hl

end SpoiltLimit
end Attribution
