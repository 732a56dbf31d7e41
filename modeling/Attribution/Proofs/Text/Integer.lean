import Attribution.Text.Integer
import Attribution.Proofs.Text.Part
import Mathlib.Data.List.Induction
import Mathlib.Data.Nat.Digits.Defs

namespace Attribution.Text

theorem writable_of_lt {n : Int} (h : n.natAbs < 10 ^ maxDigits) : writable n = true := by
  have hl : (natText n.natAbs).length ≤ maxDigits :=
    Nat.toDigits_length 10 n.natAbs maxDigits (by decide) h
  simpa [writable] using hl

theorem decimalValue?_lt {c : Char} {d : Nat} (h : decimalValue? c = some d) : d < 10 := by
  obtain ⟨z, hz, rfl⟩ := Option.map_eq_some_iff.mp h
  have hb := List.find?_some hz
  simp only [Bool.and_eq_true, decide_eq_true_eq] at hb
  omega

theorem ofDigits_append (ds : List Nat) (d : Nat) : ofDigits (ds ++ [d]) = 10 * ofDigits ds + d := by
  simp [ofDigits, List.foldl_append]

theorem ofDigits_lt {ds : List Nat} (h : ∀ d ∈ ds, d < 10) : ofDigits ds < 10 ^ ds.length := by
  induction ds using List.reverseRecOn with
  | nil => decide
  | append_singleton ds d ih =>
    have hds := ih fun e he => h e (List.mem_append_left [d] he)
    have hd := h d (by simp)
    rw [ofDigits_append, List.length_append, List.length_singleton, Nat.pow_succ]
    omega

theorem moreDigits?_bounds {cs : List Char} {ds : List Nat} (h : moreDigits? cs = some ds) :
    (∀ d ∈ ds, d < 10) ∧ ds.length ≤ cs.length := by
  fun_induction moreDigits? cs generalizing ds with
  | case1 =>
    obtain rfl := Option.some.inj h
    simp
  | case2 c cs ih =>
    obtain ⟨d, hd, h⟩ := Option.bind_eq_some_iff.mp h
    obtain ⟨es, hes, h⟩ := Option.bind_eq_some_iff.mp h
    obtain rfl := Option.some.inj h
    obtain ⟨hb, hl⟩ := ih hes
    refine ⟨List.forall_mem_cons.mpr ⟨decimalValue?_lt hd, hb⟩, ?_⟩
    simp only [List.length_cons]
    omega
  | case3 c cs _ ih =>
    obtain ⟨d, hd, h⟩ := Option.bind_eq_some_iff.mp h
    obtain ⟨es, hes, h⟩ := Option.bind_eq_some_iff.mp h
    obtain rfl := Option.some.inj h
    obtain ⟨hb, hl⟩ := ih hes
    exact ⟨List.forall_mem_cons.mpr ⟨decimalValue?_lt hd, hb⟩, Nat.succ_le_succ hl⟩

theorem digits?_bounds {cs : List Char} {ds : List Nat} (h : digits? cs = some ds) :
    (∀ d ∈ ds, d < 10) ∧ ds.length ≤ cs.length := by
  cases cs with
  | nil => simp [digits?] at h
  | cons c cs =>
    obtain ⟨d, hd, h⟩ := Option.bind_eq_some_iff.mp h
    obtain ⟨es, hes, h⟩ := Option.bind_eq_some_iff.mp h
    obtain rfl := Option.some.inj h
    obtain ⟨hb, hl⟩ := moreDigits?_bounds hes
    exact ⟨List.forall_mem_cons.mpr ⟨decimalValue?_lt hd, hb⟩, Nat.succ_le_succ hl⟩

theorem cutSign_length (cs : List Char) : (cutSign cs).2.length ≤ cs.length := by
  unfold cutSign
  split <;> simp

theorem natAbs_of_readInteger {cs : List Char} {n : Int} (h : readInteger cs = .ok n) :
    n.natAbs < 10 ^ cs.length ∧ n.natAbs < 10 ^ maxDigits := by
  unfold readInteger at h
  simp only at h
  split at h
  next => simp at h
  next ds hd =>
    split at h
    next => simp at h
    next hmax =>
      obtain ⟨hb, hl⟩ := digits?_bounds hd
      have hlt := ofDigits_lt hb
      have hlen : ds.length ≤ cs.length := by
        have hs := cutSign_length (trim isSpace cs)
        have ht := (infix_trim isSpace cs).length_le
        omega
      have hn : n.natAbs = ofDigits ds := by
        have he := Except.ok.inj h
        split at he <;> omega
      rw [hn]
      exact ⟨hlt.trans_le (Nat.pow_le_pow_right (by decide) hlen),
        hlt.trans_le (Nat.pow_le_pow_right (by decide) (by omega))⟩

theorem writable_of_readInteger {cs : List Char} {n : Int} (h : readInteger cs = .ok n) :
    writable n = true := writable_of_lt (natAbs_of_readInteger h).2

theorem readInteger_of_integer? {cs : List Char} {n : Int} (h : integer? cs = some n) :
    readInteger cs = .ok n := by
  unfold integer? at h
  split at h
  next hr => rwa [← Option.some.inj h]
  next => simp at h

end Attribution.Text
