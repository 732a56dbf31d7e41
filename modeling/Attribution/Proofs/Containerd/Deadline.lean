import Attribution.Containerd.Deadline
import Attribution.Proofs.Number.Binary

namespace Attribution.Deadline

/-- A number of milliseconds as seconds with three decimals. -/
def decimal (milliseconds : Nat) : String :=
  String.ofList (Nat.toDigits 10 (milliseconds / 1000) ++
    '.' :: (Nat.toDigits 10 (milliseconds % 1000)).leftpad 3 '0')

theorem text?_of_lt {n : Nat} (h : n < 2 ^ 52) : text? n = some (decimal n) := by
  have hneg : ¬(n : Int) < 0 := by omega
  suffices hs : ∃ b, seconds? n = some b ∧ b.text = decimal n by
    obtain ⟨b, hb, ht⟩ := hs
    rw [text?, Int.natAbs_natCast, hb, Option.map_some, if_neg hneg, ht]
  by_cases hn : n = 0
  · subst hn
    exact ⟨⟨0, 0⟩, by decide +kernel, by decide +kernel⟩
  · have hlog : n.log2 < 52 := (Nat.log2_lt hn).mpr h
    have hfraction := Binary.fraction_nearest_one hn (by omega)
    have hsmall : ¬Nat.pow 2 Binary.limitExponent ≤ n * 2 ^ (52 - n.log2) / 2 ^ (52 - n.log2) := by
      rw [Nat.mul_div_cancel n (Nat.two_pow_pos _), Nat.pow_eq]
      have hlimit : 52 ≤ Binary.limitExponent := by decide
      generalize Binary.limitExponent = limit at hlimit ⊢
      have hle : 2 ^ 52 ≤ 2 ^ limit := Nat.pow_le_pow_right (by decide) hlimit
      omega
    refine ⟨Binary.nearest (n * 2 ^ (52 - n.log2)) (1000 * 2 ^ (52 - n.log2)), ?_, ?_⟩
    · rw [seconds?, hfraction]
      dsimp only
      rw [if_neg hsmall]
    · exact Binary.text_nearest_thousandths hn (by omega) (by omega)

/-- Limits from half a unit below the power of two on cannot be waited for. -/
theorem text?_eq_none_iff {milliseconds : Int} :
    text? milliseconds = none ↔ 2 ^ 1024 - 2 ^ 970 ≤ milliseconds.natAbs := by
  have hlimit : Binary.limitExponent = 1024 := rfl
  have hunit : 1024 - 54 = 970 := rfl
  have hlarge := Binary.two_pow_le_nearest_iff (n := milliseconds.natAbs)
    (show 54 ≤ Binary.limitExponent by decide)
  have hpow : ∀ k, Nat.pow 2 k = 2 ^ k := fun _ => rfl
  have hnone : ∀ (p : Prop) [Decidable p] (b : Binary), (if p then none else some b) = none ↔ p := by
    intro p _ b
    by_cases h : p <;> simp [h]
  rw [hlimit, hunit] at hlarge
  rw [text?, Option.map_eq_none_iff, seconds?]
  dsimp only
  rw [hpow, hlimit, hnone]
  exact hlarge

example : text? 250 = some "0.250" := by decide +kernel

end Attribution.Deadline
