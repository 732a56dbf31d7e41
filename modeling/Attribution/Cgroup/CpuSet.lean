import Attribution.Text.Cut
import Attribution.Text.Integer

namespace Attribution.CpuSet

/-- How many processors one place of the list stands for; none if it cannot be read. -/
def countChunk? (chunk : List Char) : Option Int :=
  match Text.cutFirst '-' chunk with
  | (low, none) => (Text.integer? low).map fun _ => 1
  | (low, some high) => do
    let hi ← Text.integer? high
    let lo ← Text.integer? low
    return hi - lo + 1

/-- A place that can be read is one number, or two numbers around the first hyphen. -/
theorem countChunk?_eq_some {chunk : List Char} {n : Int} (h : countChunk? chunk = some n) :
    (∃ low lo, Text.cutFirst '-' chunk = (low, none) ∧ Text.integer? low = some lo ∧ n = 1) ∨
      ∃ low high lo hi, Text.cutFirst '-' chunk = (low, some high) ∧ Text.integer? low = some lo ∧
        Text.integer? high = some hi ∧ n = hi - lo + 1 := by
  unfold countChunk? at h
  split at h
  next low hc =>
    obtain ⟨lo, hlo, hn⟩ := Option.map_eq_some_iff.mp h
    exact .inl ⟨low, lo, hc, hlo, hn.symm⟩
  next low high hc =>
    obtain ⟨hi, hhi, h⟩ := Option.bind_eq_some_iff.mp h
    obtain ⟨lo, hlo, h⟩ := Option.bind_eq_some_iff.mp h
    exact .inr ⟨low, high, lo, hi, hc, hlo, hhi, (Option.some.inj h).symm⟩

def countChunks? : List (List Char) → Option Int
  | [] => some 0
  | chunk :: chunks =>
    let body := Text.strip chunk
    if body = [] then countChunks? chunks
    else do
      let n ← countChunk? body
      let rest ← countChunks? chunks
      return n + rest

/-- The first place is blank and adds nothing, or it can be read and adds what it stands for. -/
theorem countChunks?_cons_eq_some {chunk : List Char} {chunks : List (List Char)} {n : Int}
    (h : countChunks? (chunk :: chunks) = some n) :
    (Text.strip chunk = [] ∧ countChunks? chunks = some n) ∨
      ∃ m rest, Text.strip chunk ≠ [] ∧ countChunk? (Text.strip chunk) = some m ∧
        countChunks? chunks = some rest ∧ n = m + rest := by
  unfold countChunks? at h
  simp only at h
  split at h
  next hempty => exact .inl ⟨hempty, h⟩
  next hne =>
    obtain ⟨m, hm, h⟩ := Option.bind_eq_some_iff.mp h
    obtain ⟨rest, hr, h⟩ := Option.bind_eq_some_iff.mp h
    exact .inr ⟨m, rest, hne, hm, hr, (Option.some.inj h).symm⟩

/-- How many processors the list names; none at all if one place of it cannot be read. -/
def count (cpus : String) : Int := (countChunks? (Text.splitAll ',' cpus.toList)).getD 0

end Attribution.CpuSet
