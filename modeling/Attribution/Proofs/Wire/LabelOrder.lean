import Attribution.Proofs.Table
import Attribution.Wire.Container

namespace Attribution.Wire

theorem keyPrecedes_total (as bs : Bytes) : keyPrecedes as bs = true ∨ keyPrecedes bs as = true := by
  induction as generalizing bs with
  | nil =>
    cases bs with
    | nil => exact .inl rfl
    | cons b bs => exact .inr rfl
  | cons a as ih =>
    cases bs with
    | nil => exact .inl rfl
    | cons b bs =>
      by_cases h : a = b
      · simpa [keyPrecedes, h] using ih bs
      · have hlt : a < b ∨ b < a := by
          rw [UInt8.lt_iff_toNat_lt, UInt8.lt_iff_toNat_lt]
          have hne : a.toNat ≠ b.toNat := fun he => h (UInt8.toNat_inj.mp he)
          omega
        simpa [keyPrecedes, h, Ne.symm h] using hlt

theorem keyPrecedes_trans {as bs cs : Bytes} (h : keyPrecedes as bs = true)
    (h' : keyPrecedes bs cs = true) : keyPrecedes as cs = true := by
  induction as generalizing bs cs with
  | nil =>
    cases bs with
    | nil => exact h'
    | cons b bs => simp [keyPrecedes] at h
  | cons a as ih =>
    cases cs with
    | nil => rfl
    | cons c cs =>
      cases bs with
      | nil => simp [keyPrecedes] at h'
      | cons b bs =>
        simp only [keyPrecedes] at h h' ⊢
        by_cases hab : a = b
        · subst hab
          rw [if_pos rfl] at h
          by_cases hac : a = c
          · rw [if_pos hac] at h' ⊢
            exact ih h h'
          · rwa [if_neg hac] at h' ⊢
        · rw [if_neg hab, decide_eq_true_eq] at h
          by_cases hbc : b = c
          · subst hbc
            rw [if_neg hab, decide_eq_true_eq]
            exact h
          · rw [if_neg hbc, decide_eq_true_eq] at h'
            rw [UInt8.lt_iff_toNat_lt] at h h'
            have hac : a.toNat < c.toNat := by omega
            have hne : a ≠ c := by
              intro he
              rw [he] at hac
              omega
            rw [if_neg hne, decide_eq_true_eq, UInt8.lt_iff_toNat_lt]
            exact hac

variable {labels : Assoc String String}

theorem sortLabels_perm (labels : Assoc String String) : (sortLabels labels).Perm labels :=
  List.mergeSort_perm labels _

theorem sortLabels_sortLabels (labels : Assoc String String) :
    sortLabels (sortLabels labels) = sortLabels labels := by
  apply List.mergeSort_of_pairwise
  apply List.pairwise_mergeSort
  · intro a b c
    exact keyPrecedes_trans
  · intro a b
    simpa using keyPrecedes_total (textBytes a.1) (textBytes b.1)

theorem nodup_sortLabels (h : (Assoc.keys labels).Nodup) : (Assoc.keys (sortLabels labels)).Nodup := by
  have hp : (Assoc.keys (sortLabels labels)).Perm (Assoc.keys labels) :=
    (sortLabels_perm labels).map _
  exact hp.nodup_iff.mpr h

end Attribution.Wire
