import Attribution.Proofs.Cgroup.Shown
import Mathlib.Data.List.TakeWhile

namespace Attribution

theorem isPath_joinPath_iff {base name : String} (h : name.toList.head? ≠ some '/') :
    IsPath (joinPath base name) ↔ IsPath base ∧ IsPath name := by
  refine ⟨fun hp => ?_, fun hp => isPath_joinPath hp.1 hp.2⟩
  unfold joinPath at hp
  rw [if_neg h] at hp
  split at hp
  · exact isPath_append.mp hp
  · obtain ⟨hb, hn⟩ := isPath_append.mp hp
    exact ⟨(isPath_append.mp hb).1, hn⟩

namespace Limits

theorem head?_relative (cgroup : String) : (relative cgroup).toList.head? ≠ some '/' := by
  intro h
  rw [relative, String.toList_ofList] at h
  have hn := List.head?_dropWhile_not (fun c => decide (c = '/')) cgroup.toList
  rw [h] at hn
  simp at hn

theorem isPath_of_isPath_relative {cgroup : String} (h : IsPath (relative cgroup)) : IsPath cgroup := by
  intro hm
  rw [← List.takeWhile_append_dropWhile (p := fun c => decide (c = '/')) (l := cgroup.toList),
    List.mem_append] at hm
  rcases hm with hm | hm
  · have := List.mem_takeWhile_imp hm
    simp at this
  · exact h (by rwa [relative, String.toList_ofList])

theorem isPath_of_isPath_ownPlace {root controller cgroup file : String}
    (hf : file.toList.head? ≠ some '/') (hc : controller.toList.head? ≠ some '/')
    (h : IsPath (ownPlace root controller cgroup file)) :
    IsPath root ∧ IsPath cgroup := by
  obtain ⟨hdirectory, _⟩ := (isPath_joinPath_iff hf).mp h
  obtain ⟨hbase, hrel⟩ := (isPath_joinPath_iff (head?_relative cgroup)).mp hdirectory
  exact ⟨((isPath_joinPath_iff hc).mp hbase).1, isPath_of_isPath_relative hrel⟩

section

variable {fs fs' : FileSystem} {root : String} {key : LimitsKey}

theorem ownPlace_mem_asked {controller cgroup file : String} (h : cgroup ≠ "") :
    ownPlace root controller cgroup file ∈ asked fs root controller cgroup file := by
  rw [asked, if_neg h, places_eq, tried]
  exact List.mem_cons_self

/-- A reading that comes to a path with the null character is stopped by it. -/
theorem read_of_not_usable (ht : Textual fs root key) (hu : ¬Usable root key) :
    read fs root key = .error .nullInPath := by
  cases hr : read fs root key with
  | error fault =>
    obtain ⟨before, path, after, ha, _, hs⟩ := (opens_read fs root key).eq_error_iff.mp hr
    have hl : fs.Legible path := legible_of_mem_askedAll ht (by simp [ha])
    rw [FileSystem.nullInPath_of_legible hl hs]
  | ok l =>
    refine (hu fun cgroup hm hc => ?_).elim
    have hpath : ∀ p ∈ askedAll fs root key, IsPath p := fun p hp =>
      (((opens_read fs root key).eq_ok_iff.mp hr).1 p hp).1
    -- The controller's own place of its first file is opened in any case.
    simp only [LimitsKey.cgroups, List.mem_cons, List.not_mem_nil, or_false] at hm
    rcases hm with rfl | rfl | rfl
    · have hm : ownPlace root "memory" key.memory "memory.limit_in_bytes" ∈ askedAll fs root key := by
        simp [askedAll, askedMemory, ownPlace_mem_asked hc]
      exact isPath_of_isPath_ownPlace (by decide) (by decide) (hpath _ hm)
    · have hm : ownPlace root "cpu" key.cpu "cpu.shares" ∈ askedAll fs root key := by
        simp [askedAll, askedShares, ownPlace_mem_asked hc]
      exact isPath_of_isPath_ownPlace (by decide) (by decide) (hpath _ hm)
    · have hm : ownPlace root "cpuset" key.cpuset "cpuset.effective_cpus" ∈ askedAll fs root key := by
        simp [askedAll, askedCpuset, ownPlace_mem_asked hc]
      exact isPath_of_isPath_ownPlace (by decide) (by decide) (hpath _ hm)

end

/-- The files of the first version of the interface. -/
def firstVersion : List (String × String) :=
  [("memory", "memory.limit_in_bytes"), ("cpu", "cpu.shares"), ("cpu", "cpu.cfs_quota_us"),
    ("cpu", "cpu.cfs_period_us"), ("cpuset", "cpuset.effective_cpus")]

/-- Whether a file of the first version says one of the two parts of the bandwidth. -/
def FirstSaysBandwidth (fs : FileSystem) (root : String) (key : LimitsKey) : Prop :=
  shownNumber? fs root "cpu" key.cpu "cpu.cfs_quota_us" ≠ none ∨
    shownNumber? fs root "cpu" key.cpu "cpu.cfs_period_us" ≠ none

/-- Quota and period come both from the first version, where what is no number counts as 0, or both
from one text of the second, or are both 0. -/
structure Untorn (fs : FileSystem) (root : String) (key : LimitsKey) (l : Limits) : Prop where
  first : FirstSaysBandwidth fs root key →
    l.cpuQuota = positive (shownNumber? fs root "cpu" key.cpu "cpu.cfs_quota_us") ∧
      l.cpuPeriod = positive (shownNumber? fs root "cpu" key.cpu "cpu.cfs_period_us")
  second : ¬FirstSaysBandwidth fs root key →
    (∃ text, shown? fs root "cpu" key.cpu "cpu.max" = some text ∧
        l.cpuQuota = positive (splitMax text).1 ∧ l.cpuPeriod = positive (splitMax text).2) ∨
      shown? fs root "cpu" key.cpu "cpu.max" = none ∧ l.cpuQuota = 0 ∧ l.cpuPeriod = 0

/-- What the first version says is the same in both, whatever the second says. -/
structure FirstDecides (fs fs' : FileSystem) (root : String) (key : LimitsKey) (l l' : Limits) :
    Prop where
  bandwidth : FirstSaysBandwidth fs root key →
    l.cpuQuota = l'.cpuQuota ∧ l.cpuPeriod = l'.cpuPeriod
  cpuShares : shownNumber? fs root "cpu" key.cpu "cpu.shares" ≠ none → l.cpuShares = l'.cpuShares
  memory : shownNumber? fs root "memory" key.memory "memory.limit_in_bytes" ≠ none →
    l.memory = l'.memory
  cpusetCount : shown? fs root "cpuset" key.cpuset "cpuset.effective_cpus" ≠ none →
    l.cpusetCount = l'.cpusetCount

section

variable {fs fs' : FileSystem} {root : String} {key : LimitsKey}

theorem shownBandwidth_of_first (h : FirstSaysBandwidth fs root key) :
    shownBandwidth fs root key.cpu =
      (positive (shownNumber? fs root "cpu" key.cpu "cpu.cfs_quota_us"),
        positive (shownNumber? fs root "cpu" key.cpu "cpu.cfs_period_us")) :=
  if_neg (not_and_or.mpr h)

theorem untorn_shown (fs : FileSystem) (root : String) (key : LimitsKey) :
    Untorn fs root key (shown fs root key) where
  first h :=
    have hb := shownBandwidth_of_first h
    ⟨congrArg Prod.fst hb, congrArg Prod.snd hb⟩
  second h := by
    have hnone : shownNumber? fs root "cpu" key.cpu "cpu.cfs_quota_us" = none ∧
        shownNumber? fs root "cpu" key.cpu "cpu.cfs_period_us" = none := by
      simpa [FirstSaysBandwidth] using h
    have hmax : shownBandwidth fs root key.cpu =
        bandwidthOfMax (shown? fs root "cpu" key.cpu "cpu.max") := if_pos hnone
    simp only [shown, hmax]
    cases ht : shown? fs root "cpu" key.cpu "cpu.max" with
    | none => exact .inr ⟨rfl, rfl, rfl⟩
    | some text => exact .inl ⟨text, rfl, rfl, rfl⟩

theorem firstDecides_shown (h : Agree fs fs' root key firstVersion) :
    FirstDecides fs fs' root key (shown fs root key) (shown fs' root key) := by
  have hlimit : shown? fs root "memory" key.memory "memory.limit_in_bytes" =
      shown? fs' root "memory" key.memory "memory.limit_in_bytes" :=
    shown?_congr h (by simp [firstVersion])
  have hshares : shown? fs root "cpu" key.cpu "cpu.shares" =
      shown? fs' root "cpu" key.cpu "cpu.shares" :=
    shown?_congr h (by simp [firstVersion])
  have hquota : shown? fs root "cpu" key.cpu "cpu.cfs_quota_us" =
      shown? fs' root "cpu" key.cpu "cpu.cfs_quota_us" :=
    shown?_congr h (by simp [firstVersion])
  have hperiod : shown? fs root "cpu" key.cpu "cpu.cfs_period_us" =
      shown? fs' root "cpu" key.cpu "cpu.cfs_period_us" :=
    shown?_congr h (by simp [firstVersion])
  have hcpus : shown? fs root "cpuset" key.cpuset "cpuset.effective_cpus" =
      shown? fs' root "cpuset" key.cpuset "cpuset.effective_cpus" :=
    shown?_congr h (by simp [firstVersion])
  refine ⟨fun hsays => ?_, fun hsays => ?_, fun hsays => ?_, fun hsays => ?_⟩
  · have hsays' : FirstSaysBandwidth fs' root key := by
      unfold FirstSaysBandwidth shownNumber? at hsays ⊢
      rwa [← hquota, ← hperiod]
    have hb : shownBandwidth fs root key.cpu = shownBandwidth fs' root key.cpu := by
      rw [shownBandwidth_of_first hsays, shownBandwidth_of_first hsays']
      simp only [shownNumber?, hquota, hperiod]
    simp only [shown, hb, and_self]
  · obtain ⟨n, hn⟩ := Option.ne_none_iff_exists'.mp hsays
    have hn' : shownNumber? fs' root "cpu" key.cpu "cpu.shares" = some n := by
      rwa [shownNumber?, ← hshares]
    simp only [shown, shownShares, hn, hn', Option.some_or]
  · obtain ⟨n, hn⟩ := Option.ne_none_iff_exists'.mp hsays
    have hn' : shownNumber? fs' root "memory" key.memory "memory.limit_in_bytes" = some n := by
      rwa [shownNumber?, ← hlimit]
    simp only [shown, shownMemory, hn, hn', Option.some_or]
  · obtain ⟨text, ht⟩ := Option.ne_none_iff_exists'.mp hsays
    have ht' : shown? fs' root "cpuset" key.cpuset "cpuset.effective_cpus" = some text := by
      rwa [← hcpus]
    simp only [shown, shownCpuset?, ht, ht', Option.some_or]

end

/-- Of two file systems with the same files of the first version, both are read or both are not. Their
limits are the same as far as the first version says them, and no bandwidth is torn. -/
theorem first_version_takes_precedence (fs fs' : FileSystem) (root : String) (key : LimitsKey)
    (ht : Textual fs root key) (ht' : Textual fs' root key) (h : Agree fs fs' root key firstVersion) :
    (Usable root key → ∃ l l', read fs root key = .ok l ∧ read fs' root key = .ok l' ∧
        FirstDecides fs fs' root key l l' ∧ Untorn fs root key l ∧ Untorn fs' root key l') ∧
      (¬Usable root key →
        read fs root key = .error .nullInPath ∧ read fs' root key = .error .nullInPath) := by
  constructor
  · intro hu
    exact ⟨_, _, read_of_textual ht hu, read_of_textual ht' hu, firstDecides_shown h,
      untorn_shown fs root key, untorn_shown fs' root key⟩
  · exact fun hu => ⟨read_of_not_usable ht hu, read_of_not_usable ht' hu⟩

end Limits

namespace MixedVersions

open Limits
open SingleCgroup (key)

/-- The first version has a quota and no period, the second says both. -/
def fs (bandwidth : String) : FileSystem :=
  .ofTexts [("r/cpu/c/cpu.cfs_quota_us", "50000\n"), ("r/c/cpu.max", bandwidth)]

/-- The quota of the first version is not completed by a period of the second. -/
theorem quota_stays_alone :
    Textual (fs "10000 20000") "r" key ∧ Textual (fs "max 100000") "r" key ∧
      Agree (fs "10000 20000") (fs "max 100000") "r" key firstVersion ∧
      ∃ l l', read (fs "10000 20000") "r" key = .ok l ∧
        read (fs "max 100000") "r" key = .ok l' ∧ l.cpuQuota = 50000 ∧ l.cpuPeriod = 0 ∧
        l'.cpuQuota = 50000 ∧ l'.cpuPeriod = 0 := by
  have ht : ∀ bandwidth, Textual (fs bandwidth) "r" key := fun _ _ _ path _ =>
    FileSystem.legible_ofTexts _ path
  have ha : Agree (fs "10000 20000") (fs "max 100000") "r" key firstVersion := by
    unfold Agree
    decide +kernel
  have hu : Usable "r" key := by decide
  have hquota : ∀ bandwidth ∈ ["10000 20000", "max 100000"],
      shownNumber? (fs bandwidth) "r" "cpu" key.cpu "cpu.cfs_quota_us" = some 50000 ∧
        shownNumber? (fs bandwidth) "r" "cpu" key.cpu "cpu.cfs_period_us" = none := by
    decide +kernel
  obtain ⟨hq, hp⟩ := hquota "10000 20000" (by simp)
  obtain ⟨l, l', hl, hl', hd, hb, _⟩ :=
    (first_version_takes_precedence _ _ "r" key (ht _) (ht _) ha).1 hu
  have hsays : FirstSaysBandwidth (fs "10000 20000") "r" key := .inl (by rw [hq]; exact Option.some_ne_none 50000)
  obtain ⟨hfirst, hperiod⟩ := hb.first hsays
  obtain ⟨hsame, hsame'⟩ := hd.bandwidth hsays
  rw [hq] at hfirst
  rw [hp] at hperiod
  exact ⟨ht _, ht _, ha, l, l', hl, hl', hfirst, hperiod, hsame ▸ hfirst, hsame' ▸ hperiod⟩

end MixedVersions
end Attribution
