import Attribution.Proofs.Cgroup.CpuList
import Attribution.Proofs.Cgroup.Precedence

namespace Attribution

/-- What a cgroup is allotted. Without a number of its own, memory or quota is unlimited. -/
structure Allotment where
  memory : Option Nat
  weight : Nat
  quota : Option Nat
  period : Nat
  cpus : Finset Nat
  memory_range : ∀ m ∈ memory, 0 < m ∧ (m : Int) < Limits.unlimitedMemory
  weight_range : 1 ≤ weight ∧ weight ≤ 10000
  quota_range : ∀ q ∈ quota, 0 < q ∧ q < 10 ^ moderateDigits
  period_range : 0 < period ∧ period < 10 ^ moderateDigits
  cpus_nonempty : cpus.Nonempty
  cpus_range : ∀ n ∈ cpus, n < 10 ^ moderateDigits

namespace Text

/-- A number, or the word for no limit. -/
def maxText (n : Option Nat) : List Char := n.elim "max".toList natText

theorem integer?_maxText {n : Option Nat} (h : ∀ m ∈ n, m < 10 ^ maxDigits) :
    integer? (maxText n) = n.map (fun m : Nat => (m : Int)) := by
  cases n with
  | none => decide
  | some m => exact integer?_natText (h m rfl)

theorem isBlank_of_mem_maxText {n : Option Nat} {c : Char} (h : c ∈ maxText n) : isBlank c = false := by
  cases n with
  | none =>
    have hall : "max".toList.all (fun c => !isBlank c) = true := by decide
    simpa using List.all_eq_true.mp hall c h
  | some m => exact isBlank_of_isDigit (isDigit_of_mem_natText h)

theorem maxText_ne_nil (n : Option Nat) : maxText n ≠ [] := by
  cases n with
  | none => decide
  | some m => exact natText_ne_nil m

end Text

namespace CpuSet

theorem isBlank_of_mem_listing {cpus : Finset Nat} {c : Char} (h : c ∈ listing cpus) :
    Text.isBlank c = false := by
  rcases Text.mem_intercalate h with rfl | ⟨part, hp, hc⟩
  · rfl
  · obtain ⟨run, _, rfl⟩ := List.mem_map.mp hp
    exact isBlank_of_mem_runText hc

end CpuSet

namespace Limits

section

variable {fs : FileSystem} {root controller cgroup file : String} {text : List Char}

theorem readFirst?_of_holdsLine {path : String} (paths : List String) (hp : IsPath path)
    (h : fs.HoldsLine path text) (hb : Text.Bare text) :
    readFirst? fs (path :: paths) = .ok (some (String.ofList text)) := by
  have hstrip : Text.strip (text ++ ['\n']) = text :=
    Text.trim_append hb.head hb.last (by simp; decide)
  rw [readFirst?, FileSystem.readText?_of_holdsLine hp h hb.noReturn]
  simp only [String.toList_ofList, hstrip, Except.bind, bind, pure, Except.pure]

theorem readFirst?_of_hidden {path : String} (paths : List String) (hp : IsPath path)
    (h : fs.Hidden path) : readFirst? fs (path :: paths) = readFirst? fs paths := by
  rw [readFirst?, FileSystem.readText?_of_hidden hp h]
  rfl

/-- The first place where the file can be opened holds the text as a line. -/
def FirstHolds (fs : FileSystem) (root controller cgroup file : String) (text : List Char) : Prop :=
  fs.HoldsLine (ownPlace root controller cgroup file) text ∨
    fs.Hidden (ownPlace root controller cgroup file) ∧ fs.HoldsLine (commonPlace root cgroup file) text

/-- The places of a file are paths, and there are some. -/
structure Placed (root controller cgroup file : String) : Prop where
  named : cgroup ≠ ""
  own : IsPath (ownPlace root controller cgroup file)
  common : IsPath (commonPlace root cgroup file)

theorem placed {key : LimitsKey} (hr : IsPath root)
    (hk : ∀ cgroup ∈ key.cgroups, IsPath cgroup ∧ cgroup ≠ "") (hf : (controller, file) ∈ files) :
    Placed root controller (key.cgroup controller) file := by
  obtain ⟨hc, hne⟩ := hk _ (key.cgroup_mem_cgroups controller)
  have hplace : ∀ path ∈ places root controller (key.cgroup controller) file, IsPath path :=
    fun path hp => isPath_of_isPlace hr hc ⟨(controller, file), hf, hp⟩
  rw [places_eq] at hplace
  exact ⟨hne, hplace _ (by simp), hplace _ (by simp)⟩

theorem read?_of_firstHolds (hp : Placed root controller cgroup file) (hb : Text.Bare text)
    (h : FirstHolds fs root controller cgroup file text) :
    read? fs root controller cgroup file = .ok (some (String.ofList text)) := by
  rw [read?, if_neg hp.named, places_eq]
  rcases h with hown | ⟨hown, hcommon⟩
  · exact readFirst?_of_holdsLine _ hp.own hown hb
  · rw [readFirst?_of_hidden _ hp.own hown]
    exact readFirst?_of_holdsLine _ hp.common hcommon hb

theorem read?_of_hidden (hp : Placed root controller cgroup file)
    (hown : fs.Hidden (ownPlace root controller cgroup file))
    (hcommon : fs.Hidden (commonPlace root cgroup file)) :
    read? fs root controller cgroup file = .ok none := by
  rw [read?, if_neg hp.named, places_eq, readFirst?_of_hidden _ hp.own hown,
    readFirst?_of_hidden _ hp.common hcommon, readFirst?]

theorem readNumber?_of_firstHolds {n : Int} (hp : Placed root controller cgroup file)
    (hn : n.natAbs < 10 ^ Text.maxDigits)
    (h : FirstHolds fs root controller cgroup file (Text.integerText n)) :
    readNumber? fs root controller cgroup file = .ok (some n) := by
  rw [readNumber?, read?_of_firstHolds hp (Text.bare_integerText n) h, Except.map, number?,
    Option.bind_some, String.toList_ofList, Text.integer?_integerText hn]

theorem readNumber?_of_hidden (hp : Placed root controller cgroup file)
    (hown : fs.Hidden (ownPlace root controller cgroup file))
    (hcommon : fs.Hidden (commonPlace root cgroup file)) :
    readNumber? fs root controller cgroup file = .ok none := by
  rw [readNumber?, read?_of_hidden hp hown hcommon]
  rfl

end

section

variable {fs : FileSystem} {root cgroup : String}

theorem readMemory_of_first {n : Int}
    (h : readNumber? fs root "memory" cgroup "memory.limit_in_bytes" = .ok (some n)) :
    readMemory fs root cgroup = .ok (limited (some n)) := by
  rw [readMemory, h]
  rfl

theorem readMemory_of_second {n : Option Int}
    (hfirst : readNumber? fs root "memory" cgroup "memory.limit_in_bytes" = .ok none)
    (h : readNumber? fs root "memory" cgroup "memory.max" = .ok n) :
    readMemory fs root cgroup = .ok (limited n) := by
  simp only [readMemory, hfirst, h, bind, Except.bind]
  cases n <;> rfl

theorem readShares_of_first {n : Int} (h : readNumber? fs root "cpu" cgroup "cpu.shares" = .ok (some n)) :
    readShares fs root cgroup = .ok (positive (some n)) := by
  rw [readShares, h]
  rfl

theorem readShares_of_second {n : Int} (hfirst : readNumber? fs root "cpu" cgroup "cpu.shares" = .ok none)
    (h : readNumber? fs root "cpu" cgroup "cpu.weight" = .ok (some n)) (hn : 0 < n) :
    readShares fs root cgroup = .ok (positive (some (sharesOfWeight n))) := by
  simp only [readShares, hfirst, h, bind, Except.bind, pure, Except.pure, Option.filter_some, hn,
    decide_true, if_true, Option.map_some]

theorem readBandwidth_of_first {quota period : Int}
    (hq : readNumber? fs root "cpu" cgroup "cpu.cfs_quota_us" = .ok (some quota))
    (hp : readNumber? fs root "cpu" cgroup "cpu.cfs_period_us" = .ok (some period)) :
    readBandwidth fs root cgroup = .ok (positive (some quota), positive (some period)) := by
  rw [readBandwidth, hq, hp]
  rfl

theorem readBandwidth_of_second {text : String}
    (hq : readNumber? fs root "cpu" cgroup "cpu.cfs_quota_us" = .ok none)
    (hp : readNumber? fs root "cpu" cgroup "cpu.cfs_period_us" = .ok none)
    (h : read? fs root "cpu" cgroup "cpu.max" = .ok (some text)) :
    readBandwidth fs root cgroup = .ok (bandwidthOfMax (some text)) := by
  simp only [readBandwidth, hq, hp, h, bind, Except.bind]
  rfl

theorem readCpusetCount_of_first {text : String}
    (h : read? fs root "cpuset" cgroup "cpuset.effective_cpus" = .ok (some text)) :
    readCpusetCount fs root cgroup = .ok (CpuSet.count text) := by
  rw [readCpusetCount, h]
  rfl

theorem readCpusetCount_of_second {text : String}
    (hfirst : read? fs root "cpuset" cgroup "cpuset.effective_cpus" = .ok none)
    (h : read? fs root "cpuset" cgroup "cpuset.cpus.effective" = .ok (some text)) :
    readCpusetCount fs root cgroup = .ok (CpuSet.count text) := by
  simp only [readCpusetCount, hfirst, h, bind, Except.bind]
  rfl

end

end Limits

namespace Allotment

open Limits

def limits (a : Allotment) : Limits where
  memory := (a.memory.getD 0 : Nat)
  cpuShares := sharesOfWeight a.weight
  cpuQuota := (a.quota.getD 0 : Nat)
  cpuPeriod := a.period
  cpusetCount := a.cpus.card

/-- The controllers' own files of the first version hold the allotment. -/
structure HeldByFirst (a : Allotment) (fs : FileSystem) (root : String) (key : LimitsKey) : Prop where
  memory : fs.HoldsLine (ownPlace root "memory" key.memory "memory.limit_in_bytes")
    (Text.integerText (a.memory.elim unlimitedMemory fun m : Nat => (m : Int)))
  shares : fs.HoldsLine (ownPlace root "cpu" key.cpu "cpu.shares")
    (Text.integerText (sharesOfWeight a.weight))
  quota : fs.HoldsLine (ownPlace root "cpu" key.cpu "cpu.cfs_quota_us")
    (Text.integerText (a.quota.elim (-1) fun q : Nat => (q : Int)))
  period : fs.HoldsLine (ownPlace root "cpu" key.cpu "cpu.cfs_period_us") (Text.integerText a.period)
  cpus : fs.HoldsLine (ownPlace root "cpuset" key.cpuset "cpuset.effective_cpus")
    (CpuSet.listing a.cpus)

/-- The common files of the second version hold the allotment, and neither the controllers' own files
nor those of the first version can be opened. -/
structure HeldBySecond (a : Allotment) (fs : FileSystem) (root : String) (key : LimitsKey) : Prop where
  memory : fs.HoldsLine (commonPlace root key.memory "memory.max") (Text.maxText a.memory)
  weight : fs.HoldsLine (commonPlace root key.cpu "cpu.weight") (Text.integerText a.weight)
  bandwidth : fs.HoldsLine (commonPlace root key.cpu "cpu.max")
    (Text.maxText a.quota ++ ' ' :: Text.integerText a.period)
  cpus : fs.HoldsLine (commonPlace root key.cpuset "cpuset.cpus.effective") (CpuSet.listing a.cpus)
  own_hidden : ∀ file ∈ files, fs.Hidden (ownPlace root file.1 (key.cgroup file.1) file.2)
  first_hidden : ∀ file ∈ firstVersion, fs.Hidden (commonPlace root (key.cgroup file.1) file.2)

section

variable (a : Allotment)

theorem pow_moderateDigits_le : 10 ^ moderateDigits ≤ 10 ^ Text.maxDigits :=
  Nat.pow_le_pow_right (by decide) (by decide)

theorem lt_of_lt_pow_twenty {n : Nat} (h : n < 10 ^ 20) : n < 10 ^ Text.maxDigits :=
  h.trans_le (Nat.pow_le_pow_right (by decide) (by decide))

theorem sharesOfWeight_bounds : 2 ≤ sharesOfWeight a.weight ∧ sharesOfWeight a.weight ≤ 262144 := by
  obtain ⟨hl, hh⟩ := a.weight_range
  rw [sharesOfWeight, Int.fdiv_eq_ediv_of_nonneg _ (by decide)]
  omega

theorem memory_lt (m : Nat) (h : m ∈ a.memory) : m < 10 ^ Text.maxDigits := by
  have hm := (a.memory_range m h).2
  simp only [unlimitedMemory] at hm
  exact lt_of_lt_pow_twenty (by omega)

theorem quota_lt (q : Nat) (h : q ∈ a.quota) : q < 10 ^ Text.maxDigits :=
  (a.quota_range q h).2.trans_le pow_moderateDigits_le

theorem period_lt : a.period < 10 ^ Text.maxDigits := a.period_range.2.trans_le pow_moderateDigits_le

theorem mark_lt :
    (a.memory.elim unlimitedMemory fun m : Nat => (m : Int)).natAbs < 10 ^ Text.maxDigits := by
  cases hm : a.memory with
  | none => exact lt_of_lt_pow_twenty (by decide)
  | some m => exact a.memory_lt m hm

theorem quota_mark_lt :
    (a.quota.elim (-1) fun q : Nat => (q : Int)).natAbs < 10 ^ Text.maxDigits := by
  cases hq : a.quota with
  | none => exact lt_of_lt_pow_twenty (by decide)
  | some q => exact a.quota_lt q hq

theorem shares_lt : (sharesOfWeight a.weight).natAbs < 10 ^ Text.maxDigits := by
  obtain ⟨hl, hh⟩ := a.sharesOfWeight_bounds
  exact lt_of_lt_pow_twenty (by omega)

theorem weight_lt : (a.weight : Int).natAbs < 10 ^ Text.maxDigits := by
  have hw := a.weight_range.2
  exact lt_of_lt_pow_twenty (by omega)

theorem bare_memory : Text.Bare (Text.maxText a.memory) :=
  Text.bare_of_forall fun _ => Text.isBlank_of_mem_maxText

theorem bare_bandwidth : Text.Bare (Text.maxText a.quota ++ ' ' :: Text.integerText a.period) := by
  have hquota : Text.Bare (Text.maxText a.quota) :=
    Text.bare_of_forall fun _ => Text.isBlank_of_mem_maxText
  exact hquota.append (Text.bare_integerText _) (Text.maxText_ne_nil _) (Text.integerText_ne_nil _)

theorem bare_listing : Text.Bare (CpuSet.listing a.cpus) :=
  Text.bare_of_forall fun _ => CpuSet.isBlank_of_mem_listing

theorem limited_memory : limited (a.memory.map fun m : Nat => (m : Int)) = a.limits.memory := by
  cases hm : a.memory with
  | none => simp [limited, limits, hm]
  | some m =>
    obtain ⟨hpos, hlt⟩ := a.memory_range m hm
    simp only [limited, limits, hm, Option.map_some, Option.getD_some]
    rw [if_neg (by omega)]

theorem limited_mark : limited (some (a.memory.elim unlimitedMemory fun m : Nat => (m : Int))) =
    a.limits.memory := by
  rw [← a.limited_memory]
  cases a.memory <;> rfl

theorem positive_quota : positive (a.quota.map fun q : Nat => (q : Int)) = a.limits.cpuQuota := by
  cases hq : a.quota with
  | none => simp [positive, limits, hq]
  | some q =>
    obtain ⟨hpos, _⟩ := a.quota_range q hq
    simp only [positive, limits, hq, Option.map_some, Option.getD_some]
    rw [if_pos (by omega)]

theorem positive_mark : positive (some (a.quota.elim (-1) fun q : Nat => (q : Int))) = a.limits.cpuQuota := by
  rw [← a.positive_quota]
  cases a.quota <;> rfl

theorem positive_shares : positive (some (sharesOfWeight a.weight)) = a.limits.cpuShares := by
  have hs := a.sharesOfWeight_bounds.1
  exact if_pos (by omega)

theorem positive_period : positive (some (a.period : Int)) = a.limits.cpuPeriod := by
  have hp := a.period_range.1
  exact if_pos (by omega)

theorem bandwidthOfMax_eq :
    bandwidthOfMax (some (String.ofList (Text.maxText a.quota ++ ' ' :: Text.integerText a.period))) =
      (a.limits.cpuQuota, a.limits.cpuPeriod) := by
  have hspace : ' ' ∉ Text.maxText a.quota := fun h => absurd (Text.isBlank_of_mem_maxText h) (by decide)
  have hperiod : Text.integer? (Text.integerText a.period) = some (a.period : Int) :=
    Text.integer?_integerText a.period_lt
  simp only [bandwidthOfMax, splitMax, String.toList_ofList, Text.cutFirst_append hspace,
    Text.integer?_maxText a.quota_lt, Option.getD_some, hperiod, positive_quota, positive_period]

theorem count_cpus : CpuSet.count (String.ofList (CpuSet.listing a.cpus)) = a.limits.cpusetCount :=
  CpuSet.count_listing fun n hn => (a.cpus_range n hn).trans_le pow_moderateDigits_le

end

section

variable {a : Allotment} {fs : FileSystem} {root : String} {key : LimitsKey}

theorem HeldByFirst.read_eq (h : a.HeldByFirst fs root key) (hr : IsPath root)
    (hk : ∀ cgroup ∈ key.cgroups, IsPath cgroup ∧ cgroup ≠ "") : read fs root key = .ok a.limits := by
  have hmemory : readMemory fs root key.memory = .ok a.limits.memory := by
    rw [← a.limited_mark]
    apply readMemory_of_first
    exact readNumber?_of_firstHolds (placed hr hk (by simp [files])) a.mark_lt (.inl h.memory)
  have hshares : readShares fs root key.cpu = .ok a.limits.cpuShares := by
    rw [← a.positive_shares]
    apply readShares_of_first
    exact readNumber?_of_firstHolds (placed hr hk (by simp [files])) a.shares_lt (.inl h.shares)
  have hbandwidth : readBandwidth fs root key.cpu = .ok (a.limits.cpuQuota, a.limits.cpuPeriod) := by
    rw [← a.positive_mark, ← a.positive_period]
    apply readBandwidth_of_first
    · exact readNumber?_of_firstHolds (placed hr hk (by simp [files])) a.quota_mark_lt (.inl h.quota)
    · exact readNumber?_of_firstHolds (placed hr hk (by simp [files])) a.period_lt (.inl h.period)
  have hcount : readCpusetCount fs root key.cpuset = .ok a.limits.cpusetCount := by
    rw [← a.count_cpus]
    apply readCpusetCount_of_first
    exact read?_of_firstHolds (placed hr hk (by simp [files])) a.bare_listing (.inl h.cpus)
  rw [Limits.read, hmemory, hshares, hbandwidth, hcount]
  rfl

theorem HeldBySecond.firstHolds (h : a.HeldBySecond fs root key) {controller file : String}
    {text : List Char} (hf : (controller, file) ∈ files)
    (hc : fs.HoldsLine (commonPlace root (key.cgroup controller) file) text) :
    FirstHolds fs root controller (key.cgroup controller) file text :=
  .inr ⟨h.own_hidden (controller, file) hf, hc⟩

theorem HeldBySecond.first_missing (h : a.HeldBySecond fs root key) (hr : IsPath root)
    (hk : ∀ cgroup ∈ key.cgroups, IsPath cgroup ∧ cgroup ≠ "") {controller file : String}
    (hf : (controller, file) ∈ firstVersion) :
    read? fs root controller (key.cgroup controller) file = .ok none ∧
      readNumber? fs root controller (key.cgroup controller) file = .ok none := by
  have hsub : ∀ file ∈ firstVersion, file ∈ files := by decide
  have hplaced : Placed root controller (key.cgroup controller) file := placed hr hk (hsub _ hf)
  have hown : fs.Hidden (ownPlace root controller (key.cgroup controller) file) :=
    h.own_hidden (controller, file) (hsub _ hf)
  have hcommon : fs.Hidden (commonPlace root (key.cgroup controller) file) :=
    h.first_hidden (controller, file) hf
  exact ⟨read?_of_hidden hplaced hown hcommon, readNumber?_of_hidden hplaced hown hcommon⟩

theorem HeldBySecond.read_eq (h : a.HeldBySecond fs root key) (hr : IsPath root)
    (hk : ∀ cgroup ∈ key.cgroups, IsPath cgroup ∧ cgroup ≠ "") : read fs root key = .ok a.limits := by
  have hmemory : readMemory fs root key.memory = .ok a.limits.memory := by
    have hlimit : readNumber? fs root "memory" key.memory "memory.limit_in_bytes" = .ok none :=
      (h.first_missing hr hk (by simp [firstVersion])).2
    have hmax : read? fs root "memory" key.memory "memory.max" =
        .ok (some (String.ofList (Text.maxText a.memory))) :=
      read?_of_firstHolds (placed hr hk (by simp [files])) a.bare_memory
        (h.firstHolds (by simp [files]) h.memory)
    rw [← a.limited_memory]
    apply readMemory_of_second hlimit
    rw [readNumber?, hmax]
    simp only [Except.map, number?, Option.bind_some, String.toList_ofList,
      Text.integer?_maxText a.memory_lt]
  have hshares : readShares fs root key.cpu = .ok a.limits.cpuShares := by
    have hnone : readNumber? fs root "cpu" key.cpu "cpu.shares" = .ok none :=
      (h.first_missing hr hk (by simp [firstVersion])).2
    have hweight : readNumber? fs root "cpu" key.cpu "cpu.weight" = .ok (some (a.weight : Int)) :=
      readNumber?_of_firstHolds (placed hr hk (by simp [files])) a.weight_lt
        (h.firstHolds (by simp [files]) h.weight)
    have hpos := a.weight_range.1
    rw [← a.positive_shares]
    exact readShares_of_second hnone hweight (by omega)
  have hbandwidth : readBandwidth fs root key.cpu = .ok (a.limits.cpuQuota, a.limits.cpuPeriod) := by
    have hquota : readNumber? fs root "cpu" key.cpu "cpu.cfs_quota_us" = .ok none :=
      (h.first_missing hr hk (by simp [firstVersion])).2
    have hperiod : readNumber? fs root "cpu" key.cpu "cpu.cfs_period_us" = .ok none :=
      (h.first_missing hr hk (by simp [firstVersion])).2
    rw [← a.bandwidthOfMax_eq]
    apply readBandwidth_of_second hquota hperiod
    exact read?_of_firstHolds (placed hr hk (by simp [files])) a.bare_bandwidth
      (h.firstHolds (by simp [files]) h.bandwidth)
  have hcount : readCpusetCount fs root key.cpuset = .ok a.limits.cpusetCount := by
    have hnone : read? fs root "cpuset" key.cpuset "cpuset.effective_cpus" = .ok none :=
      (h.first_missing hr hk (by simp [firstVersion])).1
    rw [← a.count_cpus]
    apply readCpusetCount_of_second hnone
    exact read?_of_firstHolds (placed hr hk (by simp [files])) a.bare_listing
      (h.firstHolds (by simp [files]) h.cpus)
  rw [Limits.read, hmemory, hshares, hbandwidth, hcount]
  rfl

end

/-- Whichever version of the interface holds an allotment, what is read are its limits. Where the first
holds it, the files of the second do not matter. -/
theorem versions_agree (a : Allotment) (root : String) (key : LimitsKey) (hr : IsPath root)
    (hk : ∀ cgroup ∈ key.cgroups, IsPath cgroup ∧ cgroup ≠ "") :
    (∀ fs, a.HeldByFirst fs root key → read fs root key = .ok a.limits) ∧
      ∀ fs, a.HeldBySecond fs root key → read fs root key = .ok a.limits :=
  ⟨fun _ h => h.read_eq hr hk, fun _ h => h.read_eq hr hk⟩

end Allotment

namespace BothVersions

open Limits

def key : LimitsKey := ⟨"0123456789ab", "/c", "/", "//d"⟩

/-- A quarter of a gigabyte and five processors, without a quota. -/
def allotment : Allotment where
  memory := some 268435456
  weight := 100
  quota := none
  period := 100000
  cpus := [0, 1, 2, 3, 6].toFinset
  memory_range := by simp [unlimitedMemory]
  weight_range := by decide
  quota_range := by simp
  period_range := ⟨by decide, lt_of_lt_of_le (by decide : 100000 < 10 ^ 6)
    (Nat.pow_le_pow_right (by decide) (by decide))⟩
  cpus_nonempty := ⟨0, by simp⟩
  cpus_range n hn := by
    have hlt : n < 10 ^ 1 := by
      revert n
      decide
    exact hlt.trans_le (Nat.pow_le_pow_right (by decide) (by decide))

theorem listing_cpus : CpuSet.listing allotment.cpus = "0-3,6".toList := by
  have hsort : allotment.cpus.sort (· ≤ ·) = [0, 1, 2, 3, 6] :=
    (List.toFinset_sort (· ≤ ·) (by decide)).mpr (by decide)
  rw [CpuSet.listing, hsort]
  decide

def first : FileSystem :=
  .ofTexts [("r/memory/memory.limit_in_bytes", "268435456\n"), ("r/cpu/c/cpu.shares", "2597\n"),
    ("r/cpu/c/cpu.cfs_quota_us", "-1\n"), ("r/cpu/c/cpu.cfs_period_us", "100000\n"),
    ("r/cpuset/d/cpuset.effective_cpus", "0-3,6\n"), ("r/memory.max", "7\n"), ("r/c/cpu.max", "5 5\n")]

def second : FileSystem :=
  .ofTexts [("r/memory.max", "268435456\n"), ("r/c/cpu.weight", "100\n"),
    ("r/c/cpu.max", "max 100000\n"), ("r/d/cpuset.cpus.effective", "0-3,6\n")]

theorem heldByFirst : allotment.HeldByFirst first "r" key where
  memory := by
    unfold FileSystem.HoldsLine
    decide +kernel
  shares := by
    unfold FileSystem.HoldsLine
    decide +kernel
  quota := by
    unfold FileSystem.HoldsLine
    decide +kernel
  period := by
    unfold FileSystem.HoldsLine
    decide +kernel
  cpus := by
    rw [listing_cpus]
    unfold FileSystem.HoldsLine
    decide +kernel

theorem heldBySecond : allotment.HeldBySecond second "r" key where
  memory := by
    unfold FileSystem.HoldsLine
    decide +kernel
  weight := by
    unfold FileSystem.HoldsLine
    decide +kernel
  bandwidth := by
    unfold FileSystem.HoldsLine
    decide +kernel
  cpus := by
    rw [listing_cpus]
    unfold FileSystem.HoldsLine
    decide +kernel
  own_hidden file hf := by
    apply FileSystem.hidden_ofTexts
    revert file
    decide +kernel
  first_hidden file hf := by
    apply FileSystem.hidden_ofTexts
    revert file
    decide +kernel

/-- The root cgroup's memory and two other cgroups, read in both versions. -/
theorem versions_agree_on_five_cpus :
    IsPath "r" ∧ (∀ cgroup ∈ key.cgroups, IsPath cgroup ∧ cgroup ≠ "") ∧
      allotment.HeldByFirst first "r" key ∧ allotment.HeldBySecond second "r" key ∧
      read first "r" key = .ok ⟨268435456, 2597, 0, 100000, 5⟩ ∧
      read second "r" key = .ok ⟨268435456, 2597, 0, 100000, 5⟩ := by
  have hr : IsPath "r" := by decide
  have hk : ∀ cgroup ∈ key.cgroups, IsPath cgroup ∧ cgroup ≠ "" := by decide
  have hlimits : allotment.limits = ⟨268435456, 2597, 0, 100000, 5⟩ := by decide
  obtain ⟨hfirst, hsecond⟩ := Allotment.versions_agree allotment "r" key hr hk
  rw [← hlimits]
  exact ⟨hr, hk, heldByFirst, heldBySecond, hfirst _ heldByFirst, hsecond _ heldBySecond⟩

end BothVersions
end Attribution
