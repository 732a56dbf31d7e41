import Attribution.Cgroup.Limits
import Attribution.Proofs.Fault
import Attribution.Proofs.Files.Access
import Attribution.Proofs.Text.Integer

namespace Attribution

def moderateDigits : Nat := 4000

/-- A text of the size of a file, in which every number has at most 4000 digits. -/
structure Moderate (cs : List Char) : Prop where
  length : cs.length < 2 ^ 63
  numbers : ∀ word n, word <:+: cs → Text.integer? word = some n → n.natAbs < 10 ^ moderateDigits

theorem Moderate.part {cs part : List Char} (h : Moderate cs) (hp : part <:+: cs) :
    Moderate part :=
  ⟨hp.length_le.trans_lt h.length, fun word n hw hn => h.numbers word n (hw.trans hp) hn⟩

theorem moderate_of_length {cs : List Char} (h : cs.length ≤ moderateDigits) : Moderate cs := by
  refine ⟨h.trans_lt (by decide), fun word n hw hn => ?_⟩
  have hword : word.length ≤ moderateDigits := hw.length_le.trans h
  exact (Text.natAbs_of_readInteger (Text.readInteger_of_integer? hn)).1.trans_le
    (Nat.pow_le_pow_right (by decide) hword)

/-- What is 10^20 times as large as the numbers of a text can still be written. -/
theorem writable_of_lt_mul {n : Int} (h : n.natAbs < 10 ^ moderateDigits * 10 ^ 20) :
    Text.writable n = true := by
  have hle : 10 ^ moderateDigits * 10 ^ 20 ≤ 10 ^ Text.maxDigits := by
    rw [← Nat.pow_add]
    exact Nat.pow_le_pow_right (by decide) (by decide)
  exact Text.writable_of_lt (h.trans_le hle)

theorem writable_of_moderate {n : Int} (h : n.natAbs < 10 ^ moderateDigits) : Text.writable n = true :=
  writable_of_lt_mul (h.trans_le (Nat.le_mul_of_pos_right _ (by decide)))

namespace CpuSet

/-- The numbers of a text are below a bound. -/
def Below (bound : Nat) (cs : List Char) : Prop :=
  ∀ word n, word <:+: cs → Text.integer? word = some n → n.natAbs < bound

variable {bound : Nat}

theorem natAbs_of_countChunk? {chunk : List Char} {n : Int} (hb : Below bound chunk)
    (h : countChunk? chunk = some n) : n.natAbs ≤ 2 * bound := by
  have hlow := (Text.prefix_cutFirst '-' chunk).isInfix
  rcases countChunk?_eq_some h with ⟨low, lo, hc, hlo, rfl⟩ | ⟨low, high, lo, hi, hc, hlo, hhi, rfl⟩
  · rw [hc] at hlow
    have := hb low lo hlow hlo
    omega
  · have hhigh : high <:+: chunk := (Text.suffix_of_cutFirst (congrArg Prod.snd hc)).isInfix
    rw [hc] at hlow
    have := hb high hi hhigh hhi
    have := hb low lo hlow hlo
    omega

theorem natAbs_of_countChunks? {chunks : List (List Char)} {n : Int}
    (hb : ∀ chunk ∈ chunks, Below bound chunk) (h : countChunks? chunks = some n) :
    n.natAbs ≤ chunks.length * (2 * bound) := by
  induction chunks generalizing n with
  | nil =>
    obtain rfl := Option.some.inj h
    simp
  | cons chunk chunks ih =>
    have hlater := fun q hq => hb q (List.mem_cons_of_mem chunk hq)
    rw [List.length_cons, Nat.add_one_mul]
    rcases countChunks?_cons_eq_some h with ⟨_, h⟩ | ⟨m, rest, _, hm, hr, rfl⟩
    · have := ih hlater h
      omega
    · have hbody : Below bound (Text.strip chunk) := fun word k hw hk =>
        hb chunk (by simp) word k (hw.trans (Text.infix_trim Text.isBlank chunk)) hk
      have := natAbs_of_countChunk? hbody hm
      have := ih hlater hr
      omega

theorem writable_count {cpus : String} (h : Moderate cpus.toList) :
    Text.writable (count cpus) = true := by
  unfold count
  cases hc : countChunks? (Text.splitAll ',' cpus.toList) with
  | none => rfl
  | some n =>
    have hb : ∀ chunk ∈ Text.splitAll ',' cpus.toList, Below (10 ^ moderateDigits) chunk :=
      fun chunk hm word k hw hk => h.numbers word k (hw.trans (Text.infix_of_mem_splitAll hm)) hk
    have hn := natAbs_of_countChunks? hb hc
    have hl := Text.length_splitAll_le ',' cpus.toList
    have hs := h.length
    apply writable_of_lt_mul
    rw [Option.getD_some]
    have hpos : 0 < 10 ^ moderateDigits := Nat.pow_pos (by decide)
    generalize 10 ^ moderateDigits = bound at hn hpos ⊢
    calc n.natAbs ≤ (Text.splitAll ',' cpus.toList).length * (2 * bound) := hn
      _ ≤ 2 ^ 63 * (2 * bound) := Nat.mul_le_mul_right _ (by omega)
      _ < bound * 10 ^ 20 := by omega

end CpuSet

namespace Limits

/-- The files that limits are read from, each with its controller. -/
def files : List (String × String) :=
  [("memory", "memory.limit_in_bytes"), ("memory", "memory.max"), ("cpu", "cpu.shares"),
    ("cpu", "cpu.weight"), ("cpu", "cpu.cfs_quota_us"), ("cpu", "cpu.cfs_period_us"),
    ("cpu", "cpu.max"), ("cpuset", "cpuset.effective_cpus"), ("cpuset", "cpuset.cpus.effective")]

/-- The places where the limits of a cgroup are looked for. -/
def IsPlace (root cgroup path : String) : Prop :=
  ∃ file ∈ files, path ∈ places root file.1 cgroup file.2

theorem isPath_of_isPlace {root cgroup path : String} (hr : IsPath root) (hc : IsPath cgroup)
    (h : IsPlace root cgroup path) : IsPath path := by
  obtain ⟨file, hf, hp⟩ := h
  have hnames : ∀ file ∈ files, IsPath file.1 ∧ IsPath file.2 := by decide
  obtain ⟨hcontroller, hfile⟩ := hnames file hf
  have hrel : IsPath (relative cgroup) := by
    intro hm
    rw [relative, String.toList_ofList] at hm
    exact hc ((List.dropWhile_sublist _).mem hm)
  simp only [places, List.mem_cons, List.not_mem_nil, or_false] at hp
  rcases hp with rfl | rfl
  · exact isPath_joinPath (isPath_joinPath (isPath_joinPath hr hcontroller) hrel) hfile
  · exact isPath_joinPath (isPath_joinPath hr hrel) hfile

/-- No limit file of the cgroup spoils the reading. -/
def Readable (fs : FileSystem) (root cgroup : String) : Prop :=
  ∀ path, IsPlace root cgroup path → ∃ text, fs.readText? path = .ok text

def AllModerate (fs : FileSystem) (root : String) : Prop :=
  ∀ cgroup path text, IsPlace root cgroup path → fs.readText? path = .ok (some text) →
    Moderate text.toList

section

variable {fs : FileSystem} {root : String}

theorem readFirst?_contract {cgroup : String} {paths : List String}
    (hp : ∀ path ∈ paths, IsPlace root cgroup path) :
    Contract (Readable fs root cgroup) (readFirst? fs paths) fun text =>
      AllModerate fs root → ∀ s, text = some s → Moderate s.toList := by
  induction paths with
  | nil => exact .ok fun _ s hs => by cases hs
  | cons path paths ih =>
    have hplace := hp path (by simp)
    have hread : Contract (Readable fs root cgroup) (fs.readText? path) fun text =>
        AllModerate fs root → ∀ s, text = some s → Moderate s.toList :=
      ⟨fun hr => hr path hplace,
        fun text ht hm s hs => hm cgroup path s hplace (hs ▸ ht)⟩
    apply hread.bind
    intro text ht
    cases text with
    | none => exact ih fun q hq => hp q (List.mem_cons_of_mem path hq)
    | some text =>
      refine .ok fun hm s hs => ?_
      obtain rfl := Option.some.inj hs
      rw [String.toList_ofList]
      exact (ht hm text rfl).part (Text.infix_trim Text.isBlank text.toList)

theorem read?_contract (controller file : String) (hf : (controller, file) ∈ files)
    (cgroup : String) :
    Contract (Readable fs root cgroup) (read? fs root controller cgroup file) fun text =>
      AllModerate fs root → ∀ s, text = some s → Moderate s.toList := by
  unfold read?
  split
  next => exact .ok fun _ s hs => by cases hs
  next => exact readFirst?_contract fun path hp => ⟨(controller, file), hf, hp⟩

theorem readNumber?_contract (controller file : String) (hf : (controller, file) ∈ files)
    (cgroup : String) :
    Contract (Readable fs root cgroup) (readNumber? fs root controller cgroup file) fun n =>
      AllModerate fs root → ∀ m, n = some m → m.natAbs < 10 ^ moderateDigits := by
  apply (read?_contract controller file hf cgroup).map
  intro text ht hm n hn
  obtain ⟨s, rfl, hs⟩ := Option.bind_eq_some_iff.mp hn
  exact (ht hm s rfl).numbers s.toList n List.infix_rfl hs

theorem writable_positive {n : Option Int} (h : ∀ m, n = some m → Text.writable m = true) :
    Text.writable (positive n) = true := by
  unfold positive
  split
  next m =>
    split
    · exact h m rfl
    · rfl
  next => rfl

theorem writable_limited {n : Int} (h : n.natAbs < 10 ^ moderateDigits) :
    Text.writable (if n ≤ 0 ∨ unlimitedMemory ≤ n then 0 else n) = true := by
  split
  · rfl
  · exact writable_of_moderate h

theorem readMemory_contract (cgroup : String) :
    Contract (Readable fs root cgroup) (readMemory fs root cgroup) fun n =>
      AllModerate fs root → Text.writable n = true := by
  apply (readNumber?_contract "memory" "memory.limit_in_bytes" (by simp [files]) cgroup).bind
  intro first hfirst
  cases first with
  | some n => exact .ok fun hm => writable_limited (hfirst hm n rfl)
  | none =>
    apply (readNumber?_contract "memory" "memory.max" (by simp [files]) cgroup).bind
    intro second hsecond
    cases second with
    | none => exact .ok fun _ => rfl
    | some n => exact .ok fun hm => writable_limited (hsecond hm n rfl)

theorem readShares_contract (cgroup : String) :
    Contract (Readable fs root cgroup) (readShares fs root cgroup) fun n =>
      AllModerate fs root → Text.writable n = true := by
  apply (readNumber?_contract "cpu" "cpu.shares" (by simp [files]) cgroup).bind
  intro shares hs
  cases shares with
  | some n => exact .ok fun hm => writable_positive fun m he => writable_of_moderate (hs hm m he)
  | none =>
    apply (readNumber?_contract "cpu" "cpu.weight" (by simp [files]) cgroup).bind
    intro weight hw
    refine .ok fun hm => writable_positive fun m he => ?_
    obtain ⟨w, hf, rfl⟩ := Option.map_eq_some_iff.mp he
    obtain ⟨hsome, hpos⟩ := Option.filter_eq_some_iff.mp hf
    have hlt := hw hm w hsome
    have hle : 0 < w := by simpa using hpos
    apply writable_of_lt_mul
    unfold sharesOfWeight
    rw [Int.fdiv_eq_ediv_of_nonneg _ (by decide)]
    generalize 10 ^ moderateDigits = bound at hlt ⊢
    omega

theorem readBandwidth_contract (cgroup : String) :
    Contract (Readable fs root cgroup) (readBandwidth fs root cgroup) fun p =>
      AllModerate fs root → Text.writable p.1 = true ∧ Text.writable p.2 = true := by
  apply (readNumber?_contract "cpu" "cpu.cfs_quota_us" (by simp [files]) cgroup).bind
  intro quota hq
  apply (readNumber?_contract "cpu" "cpu.cfs_period_us" (by simp [files]) cgroup).bind
  intro period hp
  dsimp only
  split
  next =>
    apply (read?_contract "cpu" "cpu.max" (by simp [files]) cgroup).bind
    intro text ht
    cases text with
    | none => exact .ok fun _ => ⟨rfl, rfl⟩
    | some text =>
      refine .ok fun hm => ?_
      have hmoderate := ht hm text rfl
      refine ⟨writable_positive fun m he => ?_, writable_positive fun m he => ?_⟩
      · have hi := (Text.prefix_cutFirst ' ' text.toList).isInfix
        exact writable_of_moderate (hmoderate.numbers _ m hi he)
      · refine writable_of_moderate (hmoderate.numbers _ m ?_ he)
        cases hc : (Text.cutFirst ' ' text.toList).2 with
        | none => exact (List.nil_prefix).isInfix
        | some rest => exact (Text.suffix_of_cutFirst hc).isInfix
  next =>
    refine .ok fun hm => ⟨writable_positive fun m he => ?_, writable_positive fun m he => ?_⟩
    · exact writable_of_moderate (hq hm m he)
    · exact writable_of_moderate (hp hm m he)

theorem readCpusetCount_contract (cgroup : String) :
    Contract (Readable fs root cgroup) (readCpusetCount fs root cgroup) fun n =>
      AllModerate fs root → Text.writable n = true := by
  apply (read?_contract "cpuset" "cpuset.effective_cpus" (by simp [files]) cgroup).bind
  intro first hfirst
  cases first with
  | some text => exact .ok fun hm => CpuSet.writable_count (hfirst hm text rfl)
  | none =>
    apply (read?_contract "cpuset" "cpuset.cpus.effective" (by simp [files]) cgroup).bind
    intro second hsecond
    cases second with
    | none => exact .ok fun _ => rfl
    | some text => exact .ok fun hm => CpuSet.writable_count (hsecond hm text rfl)

end

def numbers (l : Limits) : List Int := [l.memory, l.cpuShares, l.cpuQuota, l.cpuPeriod, l.cpusetCount]

/-- Limits are read without a fault if their files are, and can be written if these are moderate. -/
theorem read_contract (fs : FileSystem) (root : String) (key : LimitsKey) :
    Contract (Readable fs root key.memory ∧ Readable fs root key.cpu ∧ Readable fs root key.cpuset)
      (read fs root key) fun l => AllModerate fs root → l.numbers.all Text.writable = true := by
  apply ((readMemory_contract key.memory).mono fun h => h.1).bind
  intro memory hmemory
  apply ((readShares_contract key.cpu).mono fun h => h.2.1).bind
  intro shares hshares
  apply ((readBandwidth_contract key.cpu).mono fun h => h.2.1).bind
  intro bandwidth hbandwidth
  apply ((readCpusetCount_contract key.cpuset).mono fun h => h.2.2).bind
  intro count hcount
  refine .ok fun hm => ?_
  obtain ⟨hquota, hperiod⟩ := hbandwidth hm
  simp [numbers, hmemory hm, hshares hm, hquota, hperiod, hcount hm]

end Limits
end Attribution
