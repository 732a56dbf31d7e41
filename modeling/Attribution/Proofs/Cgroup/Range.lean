import Attribution.Proofs.Cgroup.Shown

namespace Attribution

namespace CpuSet

/-- A range from a number down to one that is lower by at least two. -/
def Descends (chunk : List Char) : Prop :=
  ∃ low high lo hi, Text.cutFirst '-' chunk = (low, some high) ∧ Text.integer? low = some lo ∧
    Text.integer? high = some hi ∧ hi + 1 < lo

theorem descends_of_countChunk? {chunk : List Char} {n : Int} (h : countChunk? chunk = some n)
    (hn : n < 0) : Descends chunk := by
  rcases countChunk?_eq_some h with ⟨_, _, _, _, rfl⟩ | ⟨low, high, lo, hi, hc, hlo, hhi, rfl⟩
  · omega
  · exact ⟨low, high, lo, hi, hc, hlo, hhi, by omega⟩

theorem exists_descends_of_countChunks? {chunks : List (List Char)} {n : Int}
    (h : countChunks? chunks = some n) (hn : n < 0) :
    ∃ chunk ∈ chunks, Descends (Text.strip chunk) := by
  induction chunks generalizing n with
  | nil =>
    obtain rfl := Option.some.inj h
    omega
  | cons chunk chunks ih =>
    rcases countChunks?_cons_eq_some h with ⟨_, h⟩ | ⟨m, rest, _, hm, hr, rfl⟩
    · obtain ⟨later, hm, hd⟩ := ih h hn
      exact ⟨later, List.mem_cons_of_mem chunk hm, hd⟩
    · by_cases hneg : m < 0
      · exact ⟨chunk, List.mem_cons_self, descends_of_countChunk? hm hneg⟩
      · obtain ⟨later, hl, hd⟩ := ih hr (by omega)
        exact ⟨later, List.mem_cons_of_mem chunk hl, hd⟩

/-- Only a list with a descending range counts below 0. -/
theorem exists_descends_of_count {cpus : String} (h : count cpus < 0) :
    ∃ chunk ∈ Text.splitAll ',' cpus.toList, Descends (Text.strip chunk) := by
  unfold count at h
  cases hc : countChunks? (Text.splitAll ',' cpus.toList) with
  | none => simp [hc] at h
  | some n =>
    rw [hc, Option.getD_some] at h
    exact exists_descends_of_countChunks? hc h

end CpuSet

namespace Limits

theorem positive_nonneg (n : Option Int) : 0 ≤ positive n := by
  unfold positive
  split
  · split <;> omega
  · rfl

theorem limited_bounds (n : Option Int) : 0 ≤ limited n ∧ limited n < unlimitedMemory := by
  unfold limited
  split
  · decide
  · split
    · decide
    · omega

theorem bandwidthOfMax_nonneg (max : Option String) :
    0 ≤ (bandwidthOfMax max).1 ∧ 0 ≤ (bandwidthOfMax max).2 := by
  cases max with
  | none => exact ⟨le_rfl, le_rfl⟩
  | some text => exact ⟨positive_nonneg _, positive_nonneg _⟩

/-- The limits other than the count of processors are not negative, and memory is limited below the
mark for no limit. -/
structure InRange (l : Limits) : Prop where
  memory_nonneg : 0 ≤ l.memory
  memory_lt : l.memory < unlimitedMemory
  cpuShares : 0 ≤ l.cpuShares
  cpuQuota : 0 ≤ l.cpuQuota
  cpuPeriod : 0 ≤ l.cpuPeriod

theorem inRange_shown (fs : FileSystem) (root : String) (key : LimitsKey) :
    InRange (shown fs root key) := by
  obtain ⟨hmemory, hmark⟩ := limited_bounds
    ((shownNumber? fs root "memory" key.memory "memory.limit_in_bytes").or
      (shownNumber? fs root "memory" key.memory "memory.max"))
  have hbandwidth : 0 ≤ (shownBandwidth fs root key.cpu).1 ∧ 0 ≤ (shownBandwidth fs root key.cpu).2 := by
    unfold shownBandwidth
    dsimp only
    split
    · exact bandwidthOfMax_nonneg _
    · exact ⟨positive_nonneg _, positive_nonneg _⟩
  exact ⟨hmemory, hmark, positive_nonneg _, hbandwidth.1, hbandwidth.2⟩

/-- Limits that are read from text are in range, and the count of processors is not negative unless the
list that is counted has a descending range. -/
theorem read_in_range (fs : FileSystem) (root : String) (key : LimitsKey)
    (ht : Textual fs root key) (hu : Usable root key) :
    ∃ l, read fs root key = .ok l ∧ InRange l ∧
      (l.cpusetCount < 0 → ∃ cpus, shownCpuset? fs root key.cpuset = some cpus ∧
        ∃ chunk ∈ Text.splitAll ',' cpus.toList, CpuSet.Descends (Text.strip chunk)) := by
  refine ⟨shown fs root key, read_of_textual ht hu, inRange_shown fs root key, fun hn => ?_⟩
  simp only [shown] at hn
  cases hc : shownCpuset? fs root key.cpuset with
  | none => simp [hc] at hn
  | some cpus =>
    rw [hc, Option.map_some, Option.getD_some] at hn
    exact ⟨cpus, rfl, CpuSet.exists_descends_of_count hn⟩

end Limits

namespace DescendingRange

open Limits
open SingleCgroup (key)

/-- Limits of which those that are numbers are all negative. -/
def fs (cpus : String) : FileSystem :=
  .ofTexts [("r/memory/c/memory.limit_in_bytes", "-4096\n"), ("r/cpu/c/cpu.shares", "-2\n"),
    ("r/c/cpu.max", "-1 -1\n"), ("r/cpuset/c/cpuset.effective_cpus", cpus)]

theorem textual (cpus : String) : Textual (fs cpus) "r" key :=
  fun _ _ path _ => FileSystem.legible_ofTexts _ path

theorem usable : Usable "r" key := by decide

/-- Negative numbers leave no trace where no range descends. -/
theorem read_negative : Textual (fs "0-3,6\n") "r" key ∧ Usable "r" key ∧
    ∃ l, read (fs "0-3,6\n") "r" key = .ok l ∧ InRange l ∧ l.cpusetCount = 5 := by
  obtain ⟨l, hl, hr, _⟩ := read_in_range (fs "0-3,6\n") "r" key (textual _) usable
  have hcount : read (fs "0-3,6\n") "r" key = .ok { cpusetCount := 5 } := by decide +kernel
  obtain rfl := Except.ok.inj (hl.symm.trans hcount)
  exact ⟨textual _, usable, _, hl, hr, rfl⟩

/-- A descending range gives a container less than no processor. -/
theorem count_below_zero : Textual (fs "5-2\n") "r" key ∧ Usable "r" key ∧
    read (fs "5-2\n") "r" key = .ok { cpusetCount := -2 } ∧
    ¬∃ l, read (fs "5-2\n") "r" key = .ok l ∧ 0 ≤ l.cpusetCount := by
  have hcount : read (fs "5-2\n") "r" key = .ok { cpusetCount := -2 } := by decide +kernel
  refine ⟨textual _, usable, hcount, ?_⟩
  rintro ⟨l, hl, hn⟩
  obtain rfl := Except.ok.inj (hl.symm.trans hcount)
  exact absurd hn (by decide)

end DescendingRange
end Attribution
