import Attribution.Json.Reader
import Attribution.Proofs.Text.Part

namespace Attribution.Json

variable {d : Dialect} {c : Char} {cs s rest : List Char}

/-- The ways to write one character between quotes. -/
inductive CharSpelled : Char → List Char → Prop where
  | plain {c : Char} (hn : 0x20 ≤ c.toNat) (hq : c ≠ '"') (hb : c ≠ '\\') : CharSpelled c [c]
  | short {c e : Char} (h : escape? e = some c) : CharSpelled c ['\\', e]
  | unit {c a b x y : Char} (h : hexFour? a b x y = some c.toNat) :
      CharSpelled c ['\\', 'u', a, b, x, y]
  | pair {c a b x y a' b' x' y' : Char} {high low : Nat} (hh : hexFour? a b x y = some high)
      (hl : hexFour? a' b' x' y' = some low) (hhigh : isHigh high) (hlow : isLow low)
      (hc : c.toNat = 0x10000 + (high - 0xd800) * 0x400 + (low - 0xdc00)) :
      CharSpelled c ['\\', 'u', a, b, x, y, '\\', 'u', a', b', x', y']

/-- The ways to write the characters of a string between quotes. -/
inductive TextSpelled : List Char → List Char → Prop where
  | nil : TextSpelled [] []
  | cons {c : Char} {s piece cs : List Char} (hc : CharSpelled c piece) (h : TextSpelled s cs) :
      TextSpelled (c :: s) (piece ++ cs)

theorem isHigh_toNat (c : Char) : isHigh c.toNat = false := by
  have hv := c.valid
  simp only [UInt32.isValidChar, Nat.isValidChar] at hv
  simp only [isHigh, Char.toNat, Bool.and_eq_false_iff, decide_eq_false_iff_not]
  omega

theorem isLow_toNat (c : Char) : isLow c.toNat = false := by
  have hv := c.valid
  simp only [UInt32.isValidChar, Nat.isValidChar] at hv
  simp only [isLow, Char.toNat, Bool.and_eq_false_iff, decide_eq_false_iff_not]
  omega

theorem joinUnits_char (c : Char) (units : List Nat) :
    joinUnits (c.toNat :: units) = (joinUnits units).map (c :: ·) := by
  have hc : Char.ofNat c.toNat = c := Char.ofNat_toNat c
  cases units with
  | nil => simp [joinUnits, isHigh_toNat, isLow_toNat, hc]
  | cons low units => simp [joinUnits, isHigh_toNat, isLow_toNat, hc]

theorem joinUnits_pair {high low : Nat} (hh : isHigh high) (hl : isLow low)
    (hc : c.toNat = 0x10000 + (high - 0xd800) * 0x400 + (low - 0xdc00)) (units : List Nat) :
    joinUnits (high :: low :: units) = (joinUnits units).map (c :: ·) := by
  have hpair : pairPoint high low = c.toNat := hc.symm
  rw [joinUnits, if_pos hh, if_pos hl, hpair, Char.ofNat_toNat]

/-- However a character is written, the reader finds units that stand for it alone. -/
theorem readUnits_char (h : CharSpelled c cs) :
    ∃ units : List Nat,
      (∀ rest, readUnits (cs ++ rest) = (readUnits rest).map fun p => (units ++ p.1, p.2)) ∧
        ∀ more, joinUnits (units ++ more) = (joinUnits more).map (c :: ·) := by
  cases h with
  | plain hn hq hb =>
    refine ⟨[c.toNat], ?_, joinUnits_char c⟩
    intro rest
    have hs : ¬(c.toNat < 0x20 ∨ c = '\\') := by
      rintro (h | h)
      · omega
      · exact hb h
    rw [List.singleton_append, readUnits]
    · simp only [if_neg hs]
      cases readUnits rest <;> rfl
    all_goals simp_all
  | @short e h =>
    -- The longer escapes begin with this letter, and no short one does.
    have hu : e ≠ 'u' := by
      rintro rfl
      simp [escape?] at h
    refine ⟨[c.toNat], ?_, joinUnits_char c⟩
    intro rest
    rw [List.cons_append, List.singleton_append, readUnits, h]
    · cases readUnits rest <;> rfl
    · intro a b x y tail he
      exact absurd he hu
  | unit h =>
    refine ⟨[c.toNat], ?_, joinUnits_char c⟩
    intro rest
    simp only [List.cons_append, List.nil_append, readUnits, h]
    cases readUnits rest <;> rfl
  | @pair a b x y a' b' x' y' high low hh hl hhigh hlow hc =>
    refine ⟨[high, low], ?_, joinUnits_pair hhigh hlow hc⟩
    intro rest
    simp only [List.cons_append, List.nil_append, readUnits, hh, hl]
    cases readUnits rest <;> rfl

theorem readUnits_text (h : TextSpelled s cs) (rest : List Char) :
    ∃ units, readUnits (cs ++ '"' :: rest) = some (units, rest) ∧ joinUnits units = some s := by
  induction h with
  | nil => exact ⟨[], rfl, rfl⟩
  | cons hc _ ih =>
    obtain ⟨more, hr, hj⟩ := ih
    obtain ⟨units, hread, hjoin⟩ := readUnits_char hc
    refine ⟨units ++ more, ?_, ?_⟩
    · rw [List.append_assoc, hread, hr, Option.map_some]
    · rw [hjoin, hj, Option.map_some]

theorem readString_text {s : String} (h : TextSpelled s.toList cs) (rest : List Char) :
    readString d (cs ++ '"' :: rest) = some (.text s, rest) := by
  obtain ⟨units, hr, hj⟩ := readUnits_text h rest
  simp [readString, hr, hj]

/-- The text is over, or goes on with nothing that could belong to a number. -/
def Stops (cs : List Char) : Prop :=
  ∀ c ∈ cs.head?, c.isDigit = false ∧ c ≠ '.' ∧ c ≠ 'e' ∧ c ≠ 'E'

/-- Decimal digits with no zero that could be left out. -/
structure IsWhole (cs : List Char) : Prop where
  ne_nil : cs ≠ []
  isDigit : ∀ c ∈ cs, c.isDigit = true
  head : cs.head? = some '0' → cs.length = 1

def IsFraction (cs : List Char) : Prop :=
  cs = [] ∨ ∃ digits, cs = '.' :: digits ∧ digits ≠ [] ∧ ∀ c ∈ digits, c.isDigit = true

def IsExponent (cs : List Char) : Prop :=
  cs = [] ∨ ∃ e sign digits, cs = e :: (sign ++ digits) ∧ (e = 'e' ∨ e = 'E') ∧
    (sign = [] ∨ sign = ['+'] ∨ sign = ['-']) ∧ digits ≠ [] ∧ ∀ c ∈ digits, c.isDigit = true

def signText (negative : Bool) : List Char := if negative then ['-'] else []

/-- The ways to write a number after its sign. -/
inductive UnsignedSpelled (d : Dialect) (negative : Bool) : Json → List Char → Prop where
  | integer {whole : List Char} (hw : IsWhole whole) (hl : within d.maxInteger whole.length) :
      UnsignedSpelled d negative
        (.integer (if negative then -(Text.ofDigits (whole.map digitValue) : Int)
          else Text.ofDigits (whole.map digitValue))) whole
  | decimal {whole fraction exponent : List Char} (hw : IsWhole whole) (hf : IsFraction fraction)
      (he : IsExponent exponent) (hne : fraction ≠ [] ∨ exponent ≠ [])
      (hl : within d.maxWhole whole.length) :
      UnsignedSpelled d negative
        (.decimal (String.ofList (signText negative ++ whole ++ fraction ++ exponent)))
        (whole ++ fraction ++ exponent)

theorem span_digits {digits : List Char} (hd : ∀ c ∈ digits, c.isDigit = true)
    (hr : ∀ c ∈ rest.head?, c.isDigit = false) :
    (digits ++ rest).takeWhile Char.isDigit = digits ∧
      (digits ++ rest).dropWhile Char.isDigit = rest := by
  rw [List.takeWhile_append_of_pos hd, List.dropWhile_append_of_pos hd]
  cases rest with
  | nil => simp
  | cons c rest =>
    have hc := hr c rfl
    simp [hc]

theorem readFraction_append {fraction : List Char} (h : IsFraction fraction)
    (hr : ∀ c ∈ rest.head?, c.isDigit = false ∧ c ≠ '.') :
    readFraction (fraction ++ rest) = some (fraction, rest) := by
  rcases h with rfl | ⟨digits, rfl, hne, hd⟩
  · cases rest with
    | nil => rfl
    | cons c rest =>
      have hc := (hr c rfl).2
      unfold readFraction
      split
      next he => simp_all
      next => rfl
  · obtain ⟨ht, hdrop⟩ := span_digits hd fun c hc => (hr c hc).1
    simp [readFraction, ht, hdrop, hne]

theorem readExponent_append {exponent : List Char} (h : IsExponent exponent) (hr : Stops rest) :
    readExponent (exponent ++ rest) = some (exponent, rest) := by
  rcases h with rfl | ⟨e, sign, digits, rfl, he, hs, hne, hd⟩
  · cases rest with
    | nil => rfl
    | cons c rest =>
      obtain ⟨_, _, hc, hC⟩ := hr c rfl
      simp [readExponent, hc, hC]
  · obtain ⟨ht, hdrop⟩ := span_digits hd fun c hc => (hr c hc).1
    obtain ⟨c, tail, rfl⟩ := List.exists_cons_of_ne_nil hne
    have hc := hd c (by simp)
    have hp : c ≠ '+' := by rintro rfl; simp at hc
    have hm : c ≠ '-' := by rintro rfl; simp at hc
    rcases hs with rfl | rfl | rfl
    all_goals simp_all [readExponent]

theorem IsWhole.check {whole : List Char} (h : IsWhole whole) :
    (whole.isEmpty || (whole.head? == some '0' && whole.length != 1)) = false := by
  have hne : whole.isEmpty = false := by simpa using h.ne_nil
  by_cases hz : whole.head? = some '0'
  · simp [hne, hz, h.head hz]
  · simp [hne, hz]

theorem IsExponent.head {exponent : List Char} (h : IsExponent exponent) :
    ∀ c ∈ exponent.head?, c.isDigit = false ∧ c ≠ '.' := by
  rcases h with rfl | ⟨e, sign, digits, rfl, rfl | rfl, _⟩
  all_goals simp

theorem IsFraction.head {fraction : List Char} (h : IsFraction fraction) :
    ∀ c ∈ fraction.head?, c.isDigit = false := by
  rcases h with rfl | ⟨digits, rfl, _⟩
  all_goals simp

theorem readUnsigned_append {negative : Bool} {j : Json} (h : UnsignedSpelled d negative j cs)
    (hr : Stops rest) : readUnsigned d negative (cs ++ rest) = some (j, rest) := by
  have hdot : ∀ c ∈ rest.head?, c.isDigit = false ∧ c ≠ '.' :=
    fun c hc => ⟨(hr c hc).1, (hr c hc).2.1⟩
  cases h with
  | integer hw hl =>
    obtain ⟨ht, hd⟩ := span_digits hw.isDigit fun c hc => (hr c hc).1
    have hf : readFraction rest = some ([], rest) := readFraction_append (.inl rfl) hdot
    have he : readExponent rest = some ([], rest) := readExponent_append (.inl rfl) hr
    simp [readUnsigned, ht, hd, hw.check, hf, he, hl]
  | @decimal whole fraction exponent hw hf he hne hl =>
    have htail := Text.forall_head?_append he.head hdot
    have hwhole := Text.forall_head?_append hf.head fun c hc => (htail c hc).1
    obtain ⟨ht, hd⟩ := span_digits hw.isDigit hwhole
    have hboth : fraction = [] → exponent ≠ [] := fun hf => hne.resolve_left (not_not_intro hf)
    rw [List.append_assoc, List.append_assoc]
    simpa [readUnsigned, ht, hd, hw.check, readFraction_append hf htail, readExponent_append he hr,
      hl, signText] using hboth

theorem UnsignedSpelled.head {negative : Bool} {j : Json} (h : UnsignedSpelled d negative j cs) :
    ∃ c tail, cs = c :: tail ∧ c.isDigit = true := by
  have hw : ∀ {whole : List Char}, IsWhole whole →
      ∃ c tail, whole = c :: tail ∧ c.isDigit = true := by
    intro whole hw
    obtain ⟨c, tail, rfl⟩ := List.exists_cons_of_ne_nil hw.ne_nil
    exact ⟨c, tail, rfl, hw.isDigit c (by simp)⟩
  cases h with
  | integer h => exact hw h
  | decimal h =>
    obtain ⟨c, tail, rfl, hc⟩ := hw h
    exact ⟨c, _, rfl, hc⟩

theorem readNumber_append {negative : Bool} {j : Json} (h : UnsignedSpelled d negative j cs)
    (hr : Stops rest) : readNumber d (signText negative ++ cs ++ rest) = some (j, rest) := by
  have hread := readUnsigned_append h hr
  cases negative with
  | true => exact hread
  | false =>
    obtain ⟨c, tail, rfl, hc⟩ := h.head
    have hm : c ≠ '-' := by rintro rfl; simp at hc
    simpa [signText, readNumber, hm] using hread

/-- No number begins as a word does. -/
theorem readWord_number {negative : Bool} {j : Json} (h : UnsignedSpelled d negative j cs)
    (rest : List Char) : readWord (signText negative ++ cs ++ rest) = none := by
  obtain ⟨c, tail, rfl, hc⟩ := h.head
  have hne : ∀ c' : Char, c'.isDigit = false → c' ≠ c := by
    rintro c' hc' rfl
    simp [hc] at hc'
  cases negative with
  | true => simp [readWord, words, signText, hne 'I' rfl]
  | false =>
    simp [readWord, words, signText, hne 'n' rfl, hne 't' rfl, hne 'f' rfl, hne 'N' rfl,
      hne 'I' rfl, hne '-' rfl]

theorem readWord_append {word : String} {j : Json} (h : (word, j) ∈ words) (rest : List Char) :
    readWord (word.toList ++ rest) = some (j, rest) := by
  simp only [words, List.mem_cons, List.not_mem_nil, or_false, Prod.mk.injEq] at h
  rcases h with ⟨rfl, rfl⟩ | ⟨rfl, rfl⟩ | ⟨rfl, rfl⟩ | ⟨rfl, rfl⟩ | ⟨rfl, rfl⟩ | ⟨rfl, rfl⟩
  all_goals rfl

end Attribution.Json
