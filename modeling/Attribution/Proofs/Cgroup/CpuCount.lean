import Attribution.Proofs.Cgroup.CpuList
import Attribution.Proofs.Text.Numeral

namespace Attribution

namespace CpuSet

/-- The text of a number, or of two numbers around its first hyphen. -/
def Legible (chunk : List Char) : Prop :=
  Text.IsInteger chunk ∨
    ∃ low high, chunk = low ++ '-' :: high ∧ '-' ∉ low ∧ Text.IsInteger low ∧ Text.IsInteger high

theorem legible_of_countChunk? {chunk : List Char} {n : Int} (h : countChunk? chunk = some n) :
    Legible chunk := by
  rcases countChunk?_eq_some h with ⟨low, lo, hc, hlo, _⟩ | ⟨low, high, lo, hi, hc, hlo, hhi, _⟩
  · obtain ⟨_, rfl⟩ := Text.cutFirst_eq_none_iff.mp hc
    exact .inl (Text.isInteger_of_integer? hlo)
  · obtain ⟨hnot, heq⟩ := Text.cutFirst_eq_some_iff.mp hc
    exact .inr ⟨low, high, heq, hnot, Text.isInteger_of_integer? hlo, Text.isInteger_of_integer? hhi⟩

/-- Nothing is counted past a place that cannot be read. -/
theorem legible_of_countChunks? {chunks : List (List Char)} {n : Int}
    (h : countChunks? chunks = some n) :
    ∀ chunk ∈ chunks, Text.strip chunk ≠ [] → Legible (Text.strip chunk) := by
  induction chunks generalizing n with
  | nil => simp
  | cons chunk chunks ih =>
    rcases countChunks?_cons_eq_some h with ⟨hempty, h⟩ | ⟨m, rest, _, hm, hr, _⟩
    · exact List.forall_mem_cons.mpr ⟨fun hne => (hne hempty).elim, ih h⟩
    · exact List.forall_mem_cons.mpr ⟨fun _ => legible_of_countChunk? hm, ih hr⟩

theorem count_of_illegible {chunks : List (List Char)} (hc : ∀ chunk ∈ chunks, ',' ∉ chunk)
    (h : ∃ chunk ∈ chunks, Text.strip chunk ≠ [] ∧ ¬Legible (Text.strip chunk)) :
    count (String.ofList ([','].intercalate chunks)) = 0 := by
  obtain ⟨chunk, hm, hne, hill⟩ := h
  rw [count, String.toList_ofList, Text.splitAll_intercalate (List.ne_nil_of_mem hm) hc]
  cases hn : countChunks? chunks with
  | none => rfl
  | some n => exact (hill (legible_of_countChunks? hn chunk hm hne)).elim

/-- A list that has each processor of a set once counts as many as the set has, if their numbers are within
the limit on digits. So does the listing of the set, whose runs are in ascending order and as long as
they can be. A place that is neither blank nor legible takes away all that stands before and behind it. -/
theorem count_size_or_zero :
    (∀ (places : List Place) (cpus : Finset Nat), Partitions (runsOf places) cpus →
      (∀ n ∈ cpus, n < 10 ^ Text.maxDigits) →
        count (String.ofList (listText places)) = cpus.card) ∧
    (∀ cpus : Finset Nat, Partitions (runs (cpus.sort (· ≤ ·))) cpus ∧
      (runs (cpus.sort (· ≤ ·))).Pairwise (fun r s => r.2 + 1 < s.1) ∧
      ((∀ n ∈ cpus, n < 10 ^ Text.maxDigits) →
        count (String.ofList (listing cpus)) = cpus.card)) ∧
    ∀ chunks : List (List Char), (∀ chunk ∈ chunks, ',' ∉ chunk) →
      (∃ chunk ∈ chunks, Text.strip chunk ≠ [] ∧ ¬Legible (Text.strip chunk)) →
        count (String.ofList ([','].intercalate chunks)) = 0 := by
  refine ⟨fun places cpus hp hb => count_listText hp hb, fun cpus => ?_,
    fun chunks hc h => count_of_illegible hc h⟩
  exact ⟨partitions_runs cpus, runs_apart cpus.sortedLT_sort.pairwise, count_listing⟩

end CpuSet

namespace ScatteredList

open CpuSet

def cpus : Finset Nat := {0, 1, 2, 3, 6}

/-- The five processors out of order, with blanks and an empty place among them. -/
def places : List Place :=
  [⟨[' '], .one 6, ['\t'], List.all_eq_true.mp (by decide)⟩,
    ⟨[' '], .empty, [], List.all_eq_true.mp (by decide)⟩, .plain (.range 0 2), .plain (.range 3 3)]

theorem partitions : Partitions (runsOf places) cpus where
  ordered := by decide
  disjoint := by decide
  mem_iff n := by
    have hruns : runsOf places = [(6, 6), (0, 2), (3, 3)] := rfl
    simp only [cpus, hruns, List.exists_mem_cons_iff, List.not_mem_nil, false_and, exists_false,
      or_false, Finset.mem_insert, Finset.mem_singleton, Finset.mem_Icc]
    omega

theorem cpus_lt : ∀ n ∈ cpus, n < 10 ^ Text.maxDigits := by
  intro n hn
  have hlt : n < 10 ^ 1 := by
    revert n
    decide
  exact hlt.trans_le (Nat.pow_le_pow_right (by decide) (by decide))

/-- Three places of which the second lacks its upper end. -/
def chunks : List (List Char) := [" 4".toList, "0-x ".toList, "7".toList]

theorem illegible : ¬Legible "0-x".toList := by
  rintro (h | ⟨low, high, heq, hlow, _, hhigh⟩)
  · exact Text.readInteger_malformed_iff.mp (by decide) h
  · have hcut : ("0".toList, some "x".toList) = (low, some high) :=
      Eq.trans (by decide) (Text.cutFirst_eq_some_iff.mpr ⟨hlow, heq⟩)
    obtain ⟨rfl, hx⟩ := Prod.mk.inj hcut
    obtain rfl := Option.some.inj hx
    exact Text.readInteger_malformed_iff.mp (by decide) hhigh

theorem count_five_or_zero :
    Partitions (runsOf places) cpus ∧ (∀ n ∈ cpus, n < 10 ^ Text.maxDigits) ∧
      String.ofList (listText places) = " 6\t, ,0-2,3-3" ∧ count " 6\t, ,0-2,3-3" = 5 ∧
      count (String.ofList (listing cpus)) = 5 ∧
      (∀ chunk ∈ chunks, ',' ∉ chunk) ∧ Text.strip "0-x ".toList = "0-x".toList ∧
      ¬Legible "0-x".toList ∧ count " 4,0-x ,7" = 0 := by
  obtain ⟨hplaces, hlisting, hchunks⟩ := count_size_or_zero
  have htext : String.ofList (listText places) = " 6\t, ,0-2,3-3" := by decide
  have hjoined : String.ofList ([','].intercalate chunks) = " 4,0-x ,7" := by decide
  have hstrip : Text.strip "0-x ".toList = "0-x".toList := by decide
  have hcomma : ∀ chunk ∈ chunks, ',' ∉ chunk := by decide
  refine ⟨partitions, cpus_lt, htext, ?_, (hlisting cpus).2.2 cpus_lt, hcomma, hstrip, illegible, ?_⟩
  · rw [← htext]
    exact hplaces places cpus partitions cpus_lt
  · rw [← hjoined]
    refine hchunks chunks hcomma ⟨"0-x ".toList, by decide, by decide, ?_⟩
    rw [hstrip]
    exact illegible

end ScatteredList
end Attribution
