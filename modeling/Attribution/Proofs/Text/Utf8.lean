import Attribution.Text.Utf8
import Mathlib.Data.List.Basic

namespace Attribution.Utf8

theorem continueChar_cons {taken bs : List UInt8} {code n v : Nat} {lo hi : UInt8}
    (hl : lo.toNat ≤ v % 64 + 128) (hh : v % 64 + 128 ≤ hi.toNat) :
    continueChar taken code lo hi (n + 1) (UInt8.ofNat (v % 64 + 128) :: bs) =
      continueChar (UInt8.ofNat (v % 64 + 128) :: taken) (code * 64 + v % 64) 0x80 0xbf n bs := by
  have hb : (UInt8.ofNat (v % 64 + 128)).toNat = v % 64 + 128 := by
    rw [UInt8.toNat_ofNat']
    omega
  have hr : (lo ≤ UInt8.ofNat (v % 64 + 128) && UInt8.ofNat (v % 64 + 128) ≤ hi) = true := by
    simp only [UInt8.le_iff_toNat_le, hb, Bool.and_eq_true, decide_eq_true_eq]
    exact ⟨hl, hh⟩
  have hm : (UInt8.ofNat (v % 64 + 128)).toNat % 64 = v % 64 := by omega
  rw [continueChar, if_pos hr, hm]

/-- The first bytes of characters that take one byte, two, three or four. -/
theorem lead_one : ∀ n : Fin 128, shape? (UInt8.ofNat n) = some (0, 0x80, 0xbf) ∧
    leadBits 0 (UInt8.ofNat n) = n := by decide

theorem lead_two : ∀ n : Fin 32, 2 ≤ n.val →
    shape? (UInt8.ofNat (n + 0xc0)) = some (1, 0x80, 0xbf) ∧
      leadBits 1 (UInt8.ofNat (n + 0xc0)) = n := by decide

theorem lead_three : ∀ n : Fin 16,
    shape? (UInt8.ofNat (n + 0xe0)) =
        some (2, if n.val = 0 then 0xa0 else 0x80, if n.val = 13 then 0x9f else 0xbf) ∧
      leadBits 2 (UInt8.ofNat (n + 0xe0)) = n := by decide

theorem lead_four : ∀ n : Fin 5,
    shape? (UInt8.ofNat (n + 0xf0)) =
        some (3, if n.val = 0 then 0x90 else 0x80, if n.val = 4 then 0x8f else 0xbf) ∧
      leadBits 3 (UInt8.ofNat (n + 0xf0)) = n := by decide

variable {v : Nat} (rest : List UInt8)

theorem nextChar_one (hh : v ≤ 0x7f) :
    nextChar (UInt8.ofNat v) rest = .ok (Char.ofNat v, rest) := by
  obtain ⟨hs, hb⟩ := lead_one ⟨v, by omega⟩
  simp only at hs hb
  rw [nextChar, hs]
  simp only [continueChar, hb, Except.map]

theorem nextChar_two (hl : 0x7f < v) (hh : v ≤ 0x7ff) :
    nextChar (UInt8.ofNat (v / 64 % 32 + 0xc0)) (UInt8.ofNat (v % 64 + 128) :: rest) =
      .ok (Char.ofNat v, rest) := by
  obtain ⟨hs, hb⟩ := lead_two ⟨v / 64 % 32, by omega⟩ (by simp; omega)
  have hv : v / 64 % 32 * 64 + v % 64 = v := by omega
  simp only at hs hb
  rw [nextChar, hs]
  simp only
  rw [continueChar_cons (by simp) (by simp; omega), hb, hv]
  simp only [continueChar, Except.map]

theorem nextChar_three (hl : 0x7ff < v) (hh : v ≤ 0xffff) (hs : v < 0xd800 ∨ 0xdfff < v) :
    nextChar (UInt8.ofNat (v / 4096 % 16 + 0xe0))
        (UInt8.ofNat (v / 64 % 64 + 128) :: UInt8.ofNat (v % 64 + 128) :: rest) =
      .ok (Char.ofNat v, rest) := by
  obtain ⟨hn, hb⟩ := lead_three ⟨v / 4096 % 16, by omega⟩
  have hv : (v / 4096 % 16 * 64 + v / 64 % 64) * 64 + v % 64 = v := by omega
  simp only at hn hb
  rw [nextChar, hn]
  simp only
  rw [continueChar_cons (by split <;> simp; omega) (by split <;> simp <;> omega),
    continueChar_cons (by simp) (by simp; omega), hb, hv]
  simp only [continueChar, Except.map]

theorem nextChar_four (hl : 0xffff < v) (hh : v < 0x110000) :
    nextChar (UInt8.ofNat (v / 262144 % 8 + 0xf0))
        (UInt8.ofNat (v / 4096 % 64 + 128) :: UInt8.ofNat (v / 64 % 64 + 128) ::
          UInt8.ofNat (v % 64 + 128) :: rest) =
      .ok (Char.ofNat v, rest) := by
  obtain ⟨hn, hb⟩ := lead_four ⟨v / 262144 % 8, by omega⟩
  have hv : ((v / 262144 % 8 * 64 + v / 4096 % 64) * 64 + v / 64 % 64) * 64 + v % 64 = v := by omega
  simp only at hn hb
  rw [nextChar, hn]
  simp only
  rw [continueChar_cons (by split <;> simp; omega) (by split <;> simp <;> omega),
    continueChar_cons (by simp) (by simp; omega), continueChar_cons (by simp) (by simp; omega), hb, hv]
  simp only [continueChar, Except.map]

theorem val_bounds (c : Char) :
    c.val.toNat < 0x110000 ∧ (c.val.toNat < 0xd800 ∨ 0xdfff < c.val.toNat) := by
  have hc : c.val.toNat < 0xd800 ∨ 0xdfff < c.val.toNat ∧ c.val.toNat < 0x110000 := c.valid
  omega

theorem decodeFrom_utf8EncodeChar (offset : Nat) (c : Char) :
    decodeFrom offset (String.utf8EncodeChar c ++ rest) =
      (decodeFrom (offset + c.utf8Size) rest).map (c :: ·) := by
  obtain ⟨hb, hs⟩ := val_bounds c
  have hc : Char.ofNat c.val.toNat = c := Char.ofNat_toNat c
  obtain ⟨b, bs, he, hn⟩ : ∃ b bs, String.utf8EncodeChar c ++ rest = b :: bs ∧
      nextChar b bs = .ok (c, rest) := by
    unfold String.utf8EncodeChar
    simp only
    split_ifs with h1 h2 h3
    · exact ⟨_, _, rfl, (nextChar_one rest h1).trans (by rw [hc])⟩
    · exact ⟨_, _, rfl, (nextChar_two rest (by omega) h2).trans (by rw [hc])⟩
    · exact ⟨_, _, rfl, (nextChar_three rest (by omega) h3 hs).trans (by rw [hc])⟩
    · exact ⟨_, _, rfl, (nextChar_four rest (by omega) hb).trans (by rw [hc])⟩
  rw [he, decodeFrom]
  split
  next hf => simp [hn] at hf
  next d tail hf =>
    obtain ⟨rfl, rfl⟩ := Prod.mk.inj (Except.ok.inj (hn.symm.trans hf))
    rfl

theorem decode_encode (cs : List Char) : decode (encode cs) = .ok cs := by
  have hall : ∀ offset, decodeFrom offset (encode cs) = .ok cs := by
    induction cs with
    | nil => intro offset; rw [encode, List.flatMap_nil, decodeFrom]
    | cons c cs ih =>
      intro offset
      rw [encode, List.flatMap_cons, decodeFrom_utf8EncodeChar]
      exact congrArg (Except.map (c :: ·)) (ih _)
  exact hall 0

theorem length_encode_le (cs : List Char) : (encode cs).length ≤ 4 * cs.length := by
  induction cs with
  | nil => simp [encode]
  | cons c cs ih =>
    have hc := c.utf8Size_le_four
    have hl : (encode (c :: cs)).length = c.utf8Size + (encode cs).length := by simp [encode]
    rw [hl, List.length_cons]
    omega

end Attribution.Utf8
