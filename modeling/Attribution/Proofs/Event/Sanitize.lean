import Attribution.Event.Added
import Attribution.Proofs.Cgroup.Layout

namespace Attribution

namespace Event

theorem sanitize_of_clean {length : Nat} {s : String} (hc : ∀ c ∈ s.toList, isStripped c = false)
    (hl : s.length ≤ length) : sanitize length s = s := by
  have hf : s.toList.filter (fun c => !isStripped c) = s.toList := by
    rw [List.filter_eq_self]
    intro c hm
    simp [hc c hm]
  have ht : s.toList.take length = s.toList := 
    List.take_of_length_le (by rw [String.length_toList]; exact hl)
  rw [sanitize, hf, cut, if_pos (Int.natCast_nonneg length), Int.toNat_natCast, ht,
    String.ofList_toList]

theorem isStripped_of_isHexDigit {c : Char} (h : isHexDigit c = true) : isStripped c = false := by
  simp only [isHexDigit, Char.le_def, UInt32.le_iff_toNat_le, Bool.or_eq_true, Bool.and_eq_true,
    decide_eq_true_eq] at h
  have hn : 0x30 ≤ c.toNat ∧ c.toNat ≤ 0x66 := by
    have h0 : '0'.val.toNat = 0x30 := rfl
    have h9 : '9'.val.toNat = 0x39 := rfl
    have hA : 'A'.val.toNat = 0x41 := rfl
    have hF : 'F'.val.toNat = 0x46 := rfl
    have ha : 'a'.val.toNat = 0x61 := rfl
    have hf : 'f'.val.toNat = 0x66 := rfl
    simp only [Char.toNat]
    omega
  simp [isStripped]
  omega

theorem sanitize_of_isShortId {s : String} (h : IsShortId s) : sanitize maxText s = s := by
  have hl : s.length ≤ 256 := by rw [h.length]; decide
  exact sanitize_of_clean (fun c hc => isStripped_of_isHexDigit (h.isHexDigit_of_mem hc)) hl

theorem id_build {record : ContainerRecord} (h : IsShortId record.id) (hostname : String)
    (thread : Option Thread) : (build hostname record thread).container.id = record.id :=
  sanitize_of_isShortId h

end Event
end Attribution
