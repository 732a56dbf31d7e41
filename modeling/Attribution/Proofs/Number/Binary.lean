import Attribution.Number.Binary
import Mathlib.Tactic.Ring
import Mathlib.Data.Nat.Log

namespace Attribution

theorem roundDiv_bounds (n : Nat) {d : Nat} (hd : 0 < d) :
    2 * n ≤ 2 * (roundDiv n d * d) + d ∧ 2 * (roundDiv n d * d) ≤ 2 * n + d := by
  have hn := Nat.div_add_mod n d
  have hr := Nat.mod_lt n hd
  have he : n / d * d = d * (n / d) := Nat.mul_comm _ _
  have hs : (n / d + 1) * d = d * (n / d) + d := by ring
  unfold roundDiv
  dsimp only
  split
  next => omega
  next => omega

/-- No other number lies within one half. -/
theorem roundDiv_eq {n d q : Nat} (hl : 2 * (q * d) < 2 * n + d) (hu : 2 * n < 2 * (q * d) + d) :
    roundDiv n d = q := by
  obtain ⟨hb, hb'⟩ := roundDiv_bounds n (show 0 < d by omega)
  rcases Nat.lt_trichotomy (roundDiv n d) q with hlt | he | hgt
  · have hm := Nat.mul_le_mul_right d hlt
    rw [Nat.succ_mul] at hm
    omega
  · exact he
  · have hm := Nat.mul_le_mul_right d hgt
    rw [Nat.succ_mul] at hm
    omega

/-- Where rounding comes up to an even number. -/
theorem le_roundDiv_iff {n d q : Nat} (hd : 0 < d) (hq : q % 2 = 0) :
    q ≤ roundDiv n d ↔ 2 * (q * d) ≤ 2 * n + d := by
  obtain ⟨hl, hu⟩ := roundDiv_bounds n hd
  constructor
  · intro h
    have hm := Nat.mul_le_mul_right d h
    omega
  · intro h
    by_contra hlt
    obtain ⟨p, rfl⟩ : ∃ p, q = p + 1 := ⟨q - 1, by omega⟩
    have hm := Nat.mul_le_mul_right d (show roundDiv n d ≤ p by omega)
    rw [Nat.succ_mul p d] at h
    -- The quotient lies in the middle, and the number below it is odd.
    have hmiddle : 2 * n = 2 * (p * d) + d := by omega
    have hdiv : n / d = p := by
      rw [Nat.div_eq_iff hd]
      constructor
      · omega
      · omega
    have hn := Nat.div_add_mod n d
    rw [hdiv, Nat.mul_comm] at hn
    have hup : roundDiv n d = p + 1 := by
      unfold roundDiv
      dsimp only
      rw [hdiv, if_neg (by omega)]
    omega

namespace Binary

theorem scaleDown_neg (num den k : Nat) : scaleDown num den (-(k : Int)) = (num * 2 ^ k, den) := by
  unfold scaleDown
  split
  next h =>
    obtain rfl : k = 0 := by omega
    simp
  next => simp

theorem fraction_neg (m k : Nat) : fraction ⟨m, -(k : Int)⟩ = (m, 2 ^ k) := by
  unfold fraction
  split
  next h =>
    obtain rfl : k = 0 := by simpa using h
    simp
  next => simp

theorem nearest_eq {num : Nat} (hn : num ≠ 0) (den : Nat) :
    ∃ e : Int, (e = num.log2 - den.log2 - 52 ∨ e = num.log2 - den.log2 - 52 - 1) ∧
      nearest num den = ⟨roundDiv (scaleDown num den e).1 (scaleDown num den e).2, e⟩ := by
  unfold nearest
  rw [if_neg hn]
  dsimp only
  split
  next => exact ⟨_, .inr rfl, rfl⟩
  next => exact ⟨_, .inl rfl, rfl⟩

/-- Whole numbers of at most 53 binary digits are not rounded. -/
theorem fraction_nearest_one {n : Nat} (hn : n ≠ 0) (h : n < 2 ^ 53) :
    (nearest n 1).fraction = (n * 2 ^ (52 - n.log2), 2 ^ (52 - n.log2)) := by
  have hlog : n.log2 ≤ 52 := by
    have := (Nat.log2_lt hn).mpr h
    omega
  have hguess : (n.log2 : Int) - (Nat.log2 1 : Nat) - (precision - 1 : Nat) =
      -((52 - n.log2 : Nat) : Int) := by
    have h1 : Nat.log2 1 = 0 := by decide
    have hp : precision - 1 = 52 := rfl
    rw [h1, hp]
    omega
  have hbig : ¬n * 2 ^ (52 - n.log2) < Nat.pow 2 (precision - 1) * 1 := by
    have hself := Nat.log2_self_le hn
    have hpow : 2 ^ n.log2 * 2 ^ (52 - n.log2) = 2 ^ 52 := by
      rw [← pow_add]
      congr 1
      omega
    have hle := Nat.mul_le_mul_right (2 ^ (52 - n.log2)) hself
    have hs : Nat.pow 2 (precision - 1) * 1 = 2 ^ 52 := rfl
    omega
  have hround : roundDiv (n * 2 ^ (52 - n.log2)) 1 = n * 2 ^ (52 - n.log2) :=
    roundDiv_eq (by omega) (by omega)
  have hnearest : nearest n 1 = ⟨n * 2 ^ (52 - n.log2), -((52 - n.log2 : Nat) : Int)⟩ := by
    unfold nearest
    rw [if_neg hn]
    simp only [hguess, scaleDown_neg, if_neg hbig, hround]
  rw [hnearest, fraction_neg]

/-- Whole numbers of at least 53 binary digits are rounded to a multiple of a power of two. -/
theorem fraction_nearest_of_log2 {n : Nat} (hn : n ≠ 0) (h : 52 ≤ n.log2) :
    (nearest n 1).fraction = (roundDiv n (2 ^ (n.log2 - 52)) * 2 ^ (n.log2 - 52), 1) := by
  have hguess : (n.log2 : Int) - (Nat.log2 1 : Nat) - (precision - 1 : Nat) =
      ((n.log2 - 52 : Nat) : Int) := by
    have h1 : Nat.log2 1 = 0 := by decide
    have hp : precision - 1 = 52 := rfl
    rw [h1, hp]
    omega
  have hbig : ¬n < Nat.pow 2 (precision - 1) * (1 * Nat.pow 2 (n.log2 - 52)) := by
    have hpow : Nat.pow 2 (precision - 1) * (1 * Nat.pow 2 (n.log2 - 52)) = 2 ^ n.log2 := by
      rw [Nat.one_mul, Nat.pow_eq, Nat.pow_eq, ← pow_add]
      congr 1
      have hp : precision - 1 = 52 := rfl
      omega
    rw [hpow]
    exact Nat.not_lt.mpr (Nat.log2_self_le hn)
  have hdown : scaleDown n 1 ((n.log2 - 52 : Nat) : Int) = (n, 1 * Nat.pow 2 (n.log2 - 52)) := by
    simp [scaleDown]
  unfold nearest
  rw [if_neg hn]
  simp only [hguess, hdown, if_neg hbig]
  simp [fraction]

/-- The numbers that are rounded up to a power of two, or past it. -/
theorem two_pow_le_nearest_iff {n k : Nat} (hk : 54 ≤ k) :
    2 ^ k ≤ (nearest n 1).fraction.1 / (nearest n 1).fraction.2 ↔ 2 ^ k - 2 ^ (k - 54) ≤ n := by
  have hhalf : 2 ^ (k - 54) ≤ 2 ^ (k - 1) := Nat.pow_le_pow_right (by decide) (by omega)
  have hdouble : 2 ^ k = 2 * 2 ^ (k - 1) := by
    rw [← Nat.pow_succ']
    congr 1
    omega
  have hpos : 0 < 2 ^ (k - 1) := Nat.two_pow_pos _
  by_cases hsmall : n.log2 < 52
  · -- The number is as it was, and far too small.
    have hlt : n < 2 ^ 52 := Nat.lt_of_lt_of_le Nat.lt_log2_self (Nat.pow_le_pow_right (by decide) hsmall)
    have hle : 2 ^ 53 ≤ 2 ^ (k - 1) := Nat.pow_le_pow_right (by decide) (by omega)
    have hvalue : (nearest n 1).fraction.1 / (nearest n 1).fraction.2 = n := by
      by_cases hn : n = 0
      · subst hn
        decide
      · rw [fraction_nearest_one hn (by omega)]
        exact Nat.mul_div_cancel n (Nat.two_pow_pos _)
    rw [hvalue]
    omega
  · have hlog : 52 ≤ n.log2 := by omega
    have hn : n ≠ 0 := by
      rintro rfl
      simp at hlog
    have hself := Nat.log2_self_le hn
    have hnext : n < 2 ^ (n.log2 + 1) := Nat.lt_log2_self
    have hd : 0 < 2 ^ (n.log2 - 52) := Nat.two_pow_pos _
    have hunit : 2 ^ n.log2 = 2 ^ 52 * 2 ^ (n.log2 - 52) := by
      rw [← pow_add]
      congr 1
      omega
    rw [fraction_nearest_of_log2 hn hlog]
    dsimp only
    rw [Nat.div_one]
    have hbounds := roundDiv_bounds n hd
    have hup : 2 ^ (n.log2 + 1) = 2 * 2 ^ n.log2 := Nat.pow_succ'
    rcases Nat.lt_trichotomy (n.log2 + 1) k with hlt | he | hgt
    · -- Rounding adds less than the unit, which does not bring it as far as the power.
      have hle : 2 ^ (n.log2 + 1) ≤ 2 ^ (k - 1) := Nat.pow_le_pow_right (by decide) (by omega)
      exact iff_of_false (by omega) (by omega)
    · have hk' : 2 ^ k = 2 ^ 53 * 2 ^ (n.log2 - 52) := by
        rw [← he]
        omega
      have hunit' : 2 ^ (n.log2 - 52) = 2 * 2 ^ (k - 54) := by
        rw [← Nat.pow_succ']
        congr 1
        omega
      rw [hk', Nat.mul_le_mul_right_iff hd, le_roundDiv_iff hd (by decide), ← hk']
      omega
    · have hle : 2 ^ k ≤ 2 ^ n.log2 := Nat.pow_le_pow_right (by decide) (by omega)
      have hround : 2 ^ 52 ≤ roundDiv n (2 ^ (n.log2 - 52)) :=
        (le_roundDiv_iff hd (by decide)).mpr (by omega)
      have hm := Nat.mul_le_mul_right (2 ^ (n.log2 - 52)) hround
      exact iff_of_true (by omega) ((Nat.sub_le _ _).trans (hle.trans hself))

theorem log2_mul_two_pow {n : Nat} (hn : n ≠ 0) (k : Nat) : (n * 2 ^ k).log2 = n.log2 + k := by
  induction k with
  | zero => simp
  | succ k ih =>
    have he : n * 2 ^ (k + 1) = 2 * (n * 2 ^ k) := by ring
    have hp : n * 2 ^ k ≠ 0 := Nat.mul_ne_zero hn (Nat.two_pow_pos k).ne'
    rw [he, Nat.log2_two_mul hp, ih, Nat.add_assoc]

/-- A quotient by a thousand is off by half a unit of its last binary digit, which is less than half a
thousandth. -/
theorem text_nearest_thousandths {n k : Nat} (hn : n ≠ 0) (hk : 0 < k) (hlog : n.log2 + k = 52) :
    (nearest (n * 2 ^ k) (1000 * 2 ^ k)).text =
      String.ofList (Nat.toDigits 10 (n / 1000) ++
        '.' :: (Nat.toDigits 10 (n % 1000)).leftpad 3 '0') := by
  have hpos : 0 < 2 ^ k := Nat.two_pow_pos k
  have hnum : (n * 2 ^ k).log2 = 52 := by rw [log2_mul_two_pow hn, hlog]
  have hden : (1000 * 2 ^ k).log2 = 9 + k := by
    rw [log2_mul_two_pow (by decide)]
    have h9 : Nat.log2 1000 = 9 := by decide
    rw [h9]
  obtain ⟨e, he, hnearest⟩ := nearest_eq (Nat.mul_ne_zero hn hpos.ne') (1000 * 2 ^ k)
  -- A thousand has ten binary digits, so the last digit of the quotient stands at least ten places
  -- behind the point.
  obtain ⟨s, rfl, hs⟩ : ∃ s : Nat, e = -(s : Int) ∧ 10 ≤ s := by
    rw [hnum, hden] at he
    exact ⟨(-e).toNat, by omega, by omega⟩
  rw [scaleDown_neg] at hnearest
  dsimp only at hnearest
  obtain ⟨hl, hu⟩ := roundDiv_bounds (n * 2 ^ k * 2 ^ s) (show 0 < 1000 * 2 ^ k by omega)
  generalize roundDiv (n * 2 ^ k * 2 ^ s) (1000 * 2 ^ k) = m at hnearest hl hu
  have hl' : 2 * (n * 2 ^ s) ≤ 2 * (1000 * m) + 1000 := by
    apply Nat.le_of_mul_le_mul_right _ hpos
    calc 2 * (n * 2 ^ s) * 2 ^ k = 2 * (n * 2 ^ k * 2 ^ s) := by ring
      _ ≤ 2 * (m * (1000 * 2 ^ k)) + 1000 * 2 ^ k := hl
      _ = (2 * (1000 * m) + 1000) * 2 ^ k := by ring
  have hu' : 2 * (1000 * m) ≤ 2 * (n * 2 ^ s) + 1000 := by
    apply Nat.le_of_mul_le_mul_right _ hpos
    calc 2 * (1000 * m) * 2 ^ k = 2 * (m * (1000 * 2 ^ k)) := by ring
      _ ≤ 2 * (n * 2 ^ k * 2 ^ s) + 1000 * 2 ^ k := hu
      _ = (2 * (n * 2 ^ s) + 1000) * 2 ^ k := by ring
  have hunit : 2 ^ 10 ≤ 2 ^ s := Nat.pow_le_pow_right (by decide) hs
  have hback : roundDiv (1000 * m) (2 ^ s) = n := roundDiv_eq (by omega) (by omega)
  rw [hnearest, text, fraction_neg]
  dsimp only
  rw [hback]

end Binary
end Attribution
