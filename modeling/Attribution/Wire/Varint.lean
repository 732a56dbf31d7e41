namespace Attribution.Wire

abbrev Bytes := List UInt8

def writeVarint (n : Nat) : Bytes :=
  if n < 128 then [UInt8.ofNat n] else UInt8.ofNat (n % 128 + 128) :: writeVarint (n / 128)

/-- The number at the front, written with at most `limit` bytes, and what follows it. -/
def readVarint : Nat → Bytes → Option (Nat × Bytes)
  | 0, _ => none
  | _ + 1, [] => none
  | limit + 1, b :: bs =>
    if b < 128 then some (b.toNat, bs)
    else (readVarint limit bs).map fun p => (b.toNat - 128 + 128 * p.1, p.2)

theorem readVarint_length {limit : Nat} {bs : Bytes} {p : Nat × Bytes}
    (h : readVarint limit bs = some p) : p.2.length < bs.length := by
  induction limit generalizing bs p with
  | zero => simp [readVarint] at h
  | succ limit ih =>
    cases bs with
    | nil => simp [readVarint] at h
    | cons b bs =>
      simp only [readVarint] at h
      split at h
      · cases h; simp
      · obtain ⟨q, hq, rfl⟩ := Option.map_eq_some_iff.mp h
        have := ih hq
        simp only [List.length_cons]
        omega

end Attribution.Wire
