import Attribution.Cgroup.CpuSet
import Attribution.Proofs.Text.Written
import Mathlib.Data.Finset.Sort
import Mathlib.Order.Interval.Finset.Nat

namespace Attribution.CpuSet

/-- What stands in a list between two commas. -/
inductive Chunk
  | empty
  | one (n : Nat)
  | range (low high : Nat)

namespace Chunk

def text : Chunk → List Char
  | empty => []
  | one n => Text.natText n
  | range low high => Text.natText low ++ '-' :: Text.natText high

/-- The first and the last number that the chunk stands for, if it stands for any. -/
def run? : Chunk → Option (Nat × Nat)
  | empty => none
  | one n => some (n, n)
  | range low high => some (low, high)

theorem mem_text {chunk : Chunk} {c : Char} (h : c ∈ chunk.text) : c = '-' ∨ c.isDigit = true := by
  cases chunk with
  | empty => cases h
  | one n => exact .inr (Text.isDigit_of_mem_natText h)
  | range low high =>
    simp only [text, List.mem_append, List.mem_cons] at h
    rcases h with h | rfl | h
    · exact .inr (Text.isDigit_of_mem_natText h)
    · exact .inl rfl
    · exact .inr (Text.isDigit_of_mem_natText h)

theorem isBlank_of_mem_text {chunk : Chunk} {c : Char} (h : c ∈ chunk.text) :
    Text.isBlank c = false := by
  rcases mem_text h with rfl | h
  · rfl
  · exact Text.isBlank_of_isDigit h

theorem text_eq_nil {chunk : Chunk} (h : chunk.run? = none) : chunk.text = [] := by
  cases chunk with
  | empty => rfl
  | one n => cases h
  | range low high => cases h

theorem countChunk?_text {chunk : Chunk} {run : Nat × Nat} (hr : chunk.run? = some run)
    (hle : run.1 ≤ run.2) (hb : run.2 < 10 ^ Text.maxDigits) :
    chunk.text ≠ [] ∧ countChunk? chunk.text = some ((run.2 + 1 - run.1 : Nat) : Int) := by
  cases chunk with
  | empty => cases hr
  | one n =>
    cases hr
    have hcut : Text.cutFirst '-' (Text.natText n) = (Text.natText n, none) :=
      Text.cutFirst_of_notMem (Text.notMem_natText rfl n)
    exact ⟨Text.natText_ne_nil n, by simp [countChunk?, text, hcut, Text.integer?_natText hb]⟩
  | range low high =>
    cases hr
    have hcut : Text.cutFirst '-' (Text.natText low ++ '-' :: Text.natText high) =
        (Text.natText low, some (Text.natText high)) :=
      Text.cutFirst_append (Text.notMem_natText rfl low) _
    refine ⟨by simp [text], ?_⟩
    simp only [countChunk?, text, hcut, Text.integer?_natText (lt_of_le_of_lt hle hb),
      Text.integer?_natText hb, Option.bind_eq_bind, Option.bind_some, Option.pure_def,
      Option.some.injEq]
    omega

end Chunk

/-- A chunk with blanks around. -/
structure Place where
  before : List Char
  chunk : Chunk
  after : List Char
  isBlank : ∀ c ∈ before ++ after, Text.isBlank c = true

namespace Place

def plain (chunk : Chunk) : Place where
  before := []
  chunk := chunk
  after := []
  isBlank := by simp

def text (place : Place) : List Char := place.before ++ (place.chunk.text ++ place.after)

theorem strip_text (place : Place) : Text.strip place.text = place.chunk.text := by
  obtain ⟨hbefore, hafter⟩ := List.forall_mem_append.mp place.isBlank
  have hplain : ∀ c ∈ place.chunk.text, Text.isBlank c = false := fun _ =>
    Chunk.isBlank_of_mem_text
  rw [Text.strip, text, Text.trim_append_left hbefore]
  exact Text.trim_append (fun c hc => hplain c (List.mem_of_mem_head? hc))
    (fun c hc => hplain c (List.mem_of_mem_getLast? hc)) hafter

theorem comma_notMem_text (place : Place) : ',' ∉ place.text := by
  have hblank : Text.isBlank ',' = false := by decide
  simp only [text, List.mem_append, not_or]
  refine ⟨fun h => ?_, fun h => ?_, fun h => ?_⟩
  · rw [place.isBlank ',' (List.mem_append_left _ h)] at hblank
    cases hblank
  · have hc := Chunk.mem_text h
    revert hc
    decide
  · rw [place.isBlank ',' (List.mem_append_right _ h)] at hblank
    cases hblank

end Place

/-- The places one after another with commas between them. -/
def listText (places : List Place) : List Char := [','].intercalate (places.map Place.text)

/-- The runs that are named in a list. -/
def runsOf (places : List Place) : List (Nat × Nat) := places.filterMap fun place => place.chunk.run?

/-- How many numbers the runs take together. -/
def total (rs : List (Nat × Nat)) : Nat := (rs.map fun run => run.2 + 1 - run.1).sum

/-- Each number of the set is in one run, and no others are. -/
structure Partitions (rs : List (Nat × Nat)) (cpus : Finset Nat) : Prop where
  ordered : ∀ run ∈ rs, run.1 ≤ run.2
  disjoint : rs.Pairwise fun r s => Disjoint (Finset.Icc r.1 r.2) (Finset.Icc s.1 s.2)
  mem_iff : ∀ n, n ∈ cpus ↔ ∃ run ∈ rs, n ∈ Finset.Icc run.1 run.2

section

variable {rs : List (Nat × Nat)} {run : Nat × Nat} {cpus : Finset Nat}

/-- What the first run leaves of the set is for the later ones. -/
theorem Partitions.tail (h : Partitions (run :: rs) cpus) :
    Finset.Icc run.1 run.2 ⊆ cpus ∧ Partitions rs (cpus \ Finset.Icc run.1 run.2) := by
  obtain ⟨hfirst, hlater⟩ := List.pairwise_cons.mp h.disjoint
  refine ⟨fun n hn => (h.mem_iff n).mpr ⟨run, List.mem_cons_self, hn⟩,
    (List.forall_mem_cons.mp h.ordered).2, hlater, fun n => ?_⟩
  rw [Finset.mem_sdiff, h.mem_iff]
  constructor
  · rintro ⟨⟨later, hm, hn⟩, hnot⟩
    rcases List.mem_cons.mp hm with rfl | hm
    · exact (hnot hn).elim
    · exact ⟨later, hm, hn⟩
  · rintro ⟨later, hm, hn⟩
    exact ⟨⟨later, List.mem_cons_of_mem run hm, hn⟩,
      fun hrun => Finset.disjoint_left.mp (hfirst later hm) hrun hn⟩

theorem total_eq_card (h : Partitions rs cpus) : total rs = cpus.card := by
  induction rs generalizing cpus with
  | nil =>
    have hempty : cpus = ∅ := Finset.eq_empty_of_forall_notMem fun n hn => by
      simpa using (h.mem_iff n).mp hn
    rw [hempty]
    rfl
  | cons run rs ih =>
    obtain ⟨hsub, hlater⟩ := h.tail
    calc total (run :: rs) = (run.2 + 1 - run.1) + total rs := by simp [total]
      _ = (Finset.Icc run.1 run.2).card + (cpus \ Finset.Icc run.1 run.2).card := by
        rw [ih hlater, Nat.card_Icc]
      _ = cpus.card := by rw [add_comm, Finset.card_sdiff_add_card_eq_card hsub]

end

/-- A list counts as many processors as its runs take together. -/
theorem countChunks?_places {places : List Place}
    (h : ∀ run ∈ runsOf places, run.1 ≤ run.2 ∧ run.2 < 10 ^ Text.maxDigits) :
    countChunks? (places.map Place.text) = some (total (runsOf places) : Int) := by
  induction places with
  | nil => rfl
  | cons place places ih =>
    rw [List.map_cons, countChunks?, place.strip_text]
    cases hr : place.chunk.run? with
    | none =>
      have hskip : runsOf (place :: places) = runsOf places := List.filterMap_cons_none hr
      rw [hskip] at h ⊢
      simpa only [if_pos (Chunk.text_eq_nil hr)] using ih h
    | some run =>
      have hcons : runsOf (place :: places) = run :: runsOf places := List.filterMap_cons_some hr
      rw [hcons] at h ⊢
      obtain ⟨⟨hle, hb⟩, hlater⟩ := List.forall_mem_cons.mp h
      obtain ⟨hne, hcount⟩ := Chunk.countChunk?_text hr hle hb
      simp only [if_neg hne, hcount, ih hlater]
      simp [total]

theorem count_listText {places : List Place} {cpus : Finset Nat} (h : Partitions (runsOf places) cpus)
    (hb : ∀ n ∈ cpus, n < 10 ^ Text.maxDigits) : count (String.ofList (listText places)) = cpus.card := by
  have hruns : ∀ run ∈ runsOf places, run.1 ≤ run.2 ∧ run.2 < 10 ^ Text.maxDigits := fun run hr => by
    have hle := h.ordered run hr
    exact ⟨hle, hb _ ((h.mem_iff _).mpr ⟨run, hr, Finset.mem_Icc.mpr ⟨hle, le_rfl⟩⟩)⟩
  have hcounted : countChunks? (Text.splitAll ',' (listText places)) =
      some (total (runsOf places) : Int) := by
    by_cases hne : places = []
    · subst hne
      rfl
    · rw [listText, Text.splitAll_intercalate (by simpa using hne) fun part hp => ?_]
      · exact countChunks?_places hruns
      · obtain ⟨place, _, rfl⟩ := List.mem_map.mp hp
        exact place.comma_notMem_text
  rw [count, String.toList_ofList, hcounted, Option.getD_some, total_eq_card h]

/-- The runs of consecutive numbers of an ascending list, each with its first and its last number. -/
def runs : List Nat → List (Nat × Nat)
  | [] => []
  | n :: ns =>
    match runs ns with
    | [] => [(n, n)]
    | (low, high) :: later =>
      if n + 1 = low then (n, high) :: later else (n, n) :: (low, high) :: later

/-- A run of one number is written as this number, a longer one with a hyphen between its ends. -/
def runText (run : Nat × Nat) : List Char :=
  if run.1 = run.2 then Text.natText run.1 else Text.natText run.1 ++ '-' :: Text.natText run.2

/-- A set of processors as the list of its runs from the lowest on, with commas between them. -/
def listing (cpus : Finset Nat) : List Char := [','].intercalate ((runs (cpus.sort (· ≤ ·))).map runText)

theorem of_mem_runs {ns : List Nat} {run : Nat × Nat} (h : run ∈ runs ns) :
    run.1 ∈ ns ∧ run.2 ∈ ns ∧ run.1 ≤ run.2 := by
  induction ns generalizing run with
  | nil => cases h
  | cons n ns ih =>
    have hlater : ∀ r ∈ runs ns, r.1 ∈ n :: ns ∧ r.2 ∈ n :: ns ∧ r.1 ≤ r.2 := fun r hr =>
      ⟨List.mem_cons_of_mem n (ih hr).1, List.mem_cons_of_mem n (ih hr).2.1, (ih hr).2.2⟩
    unfold runs at h
    split at h
    next =>
      obtain rfl := List.mem_singleton.mp h
      simp
    next low high later hr =>
      rw [hr] at hlater
      obtain ⟨_, hhigh, hle⟩ := hlater (low, high) List.mem_cons_self
      split at h
      next hn =>
        rcases List.mem_cons.mp h with rfl | h
        · exact ⟨List.mem_cons_self, hhigh, by simp only at hle ⊢; omega⟩
        · exact hlater run (List.mem_cons_of_mem _ h)
      next =>
        rcases List.mem_cons.mp h with rfl | h
        · simp
        · exact hlater run h

/-- The runs hold the numbers of the list and no others. -/
theorem mem_iff_runs {ns : List Nat} {m : Nat} :
    m ∈ ns ↔ ∃ run ∈ runs ns, m ∈ Finset.Icc run.1 run.2 := by
  induction ns with
  | nil => simp [runs]
  | cons n ns ih =>
    rw [List.mem_cons, ih, runs]
    split
    next hr =>
      simp only [hr, List.mem_singleton, exists_eq_left, Finset.mem_Icc, List.not_mem_nil, false_and,
        exists_false, or_false]
      omega
    next low high later hr =>
      have hfirst : (low, high) ∈ runs ns := by
        rw [hr]
        exact List.mem_cons_self
      have hle : low ≤ high := (of_mem_runs hfirst).2.2
      rw [hr]
      split
      next hn =>
        subst hn
        simp only [List.exists_mem_cons_iff, Finset.mem_Icc, ← or_assoc]
        exact or_congr_left (by omega)
      next =>
        simp only [List.exists_mem_cons_iff, Finset.mem_Icc]
        exact or_congr_left (by omega)

/-- The runs of an ascending list ascend, and between two of them a number is left out. -/
theorem runs_apart {ns : List Nat} (h : ns.Pairwise (· < ·)) :
    (runs ns).Pairwise fun r s => r.2 + 1 < s.1 := by
  induction ns with
  | nil => exact List.Pairwise.nil
  | cons n ns ih =>
    obtain ⟨hn, hns⟩ := List.pairwise_cons.mp h
    have hafter : ∀ run ∈ runs ns, n < run.1 := fun run hr => hn run.1 (of_mem_runs hr).1
    have hordered : ∀ run ∈ runs ns, run.1 ≤ run.2 := fun run hr => (of_mem_runs hr).2.2
    have hapart := ih hns
    rw [runs]
    split
    next => exact List.pairwise_singleton _ _
    next low high later hr =>
      rw [hr] at hapart hafter hordered
      obtain ⟨hfirst, hlater⟩ := List.pairwise_cons.mp hapart
      have hlow := hafter (low, high) List.mem_cons_self
      have hle := hordered (low, high) List.mem_cons_self
      split
      next => exact List.pairwise_cons.mpr ⟨hfirst, hlater⟩
      next hne =>
        refine List.pairwise_cons.mpr ⟨List.forall_mem_cons.mpr ⟨?_, fun run hm => ?_⟩, hapart⟩
        · simp only at hlow ⊢
          omega
        · have hgap := hfirst run hm
          simp only at hgap hle hlow ⊢
          omega

theorem partitions_runs (cpus : Finset Nat) : Partitions (runs (cpus.sort (· ≤ ·))) cpus where
  ordered _ hr := (of_mem_runs hr).2.2
  disjoint := by
    refine (runs_apart (cpus.sortedLT_sort).pairwise).imp fun {r s} hapart => ?_
    refine Finset.disjoint_left.mpr fun n hr hs => ?_
    rw [Finset.mem_Icc] at hr hs
    omega
  mem_iff n := by rw [← mem_iff_runs, Finset.mem_sort]

/-- The chunk that names a run. -/
def Chunk.ofRun (run : Nat × Nat) : Chunk :=
  if run.1 = run.2 then .one run.1 else .range run.1 run.2

theorem Chunk.run?_ofRun (run : Nat × Nat) : (Chunk.ofRun run).run? = some run := by
  obtain ⟨low, high⟩ := run
  unfold ofRun
  split
  next h =>
    obtain rfl : low = high := h
    rfl
  next => rfl

theorem Chunk.text_ofRun (run : Nat × Nat) : (Chunk.ofRun run).text = runText run := by
  unfold ofRun runText
  split <;> rfl

theorem isBlank_of_mem_runText {run : Nat × Nat} {c : Char} (h : c ∈ runText run) :
    Text.isBlank c = false := by
  rw [← Chunk.text_ofRun] at h
  exact Chunk.isBlank_of_mem_text h

/-- The places that name the runs. -/
def placesOf (rs : List (Nat × Nat)) : List Place := rs.map fun run => .plain (.ofRun run)

theorem runsOf_placesOf (rs : List (Nat × Nat)) : runsOf (placesOf rs) = rs := by
  simp [runsOf, placesOf, List.filterMap_map, Place.plain, Chunk.run?_ofRun]

theorem listText_placesOf (cpus : Finset Nat) :
    listText (placesOf (runs (cpus.sort (· ≤ ·)))) = listing cpus := by
  simp [listText, placesOf, listing, Place.plain, Place.text, Chunk.text_ofRun, Function.comp_def]

/-- In the listing of a set as many processors are counted as there are in the set. -/
theorem count_listing {cpus : Finset Nat} (hb : ∀ n ∈ cpus, n < 10 ^ Text.maxDigits) :
    count (String.ofList (listing cpus)) = cpus.card := by
  rw [← listText_placesOf]
  refine count_listText ?_ hb
  rw [runsOf_placesOf]
  exact partitions_runs cpus

end Attribution.CpuSet
