import Attribution.Proofs.Text.Integer

namespace Attribution.Text

variable {c : Char} {cs : List Char}

/-- Digits with single underscores between some of them. -/
inductive DigitText : List Char → Prop
  | one {c : Char} (hc : isDecimal c = true) : DigitText [c]
  | cons {c : Char} {cs : List Char} (hc : isDecimal c = true) (h : DigitText cs) :
      DigitText (c :: cs)
  | underscore {c : Char} {cs : List Char} (hc : isDecimal c = true) (h : DigitText cs) :
      DigitText (c :: '_' :: cs)

/-- The text of a whole number, be it as long as it may. -/
def IsInteger (cs : List Char) : Prop :=
  ∃ sign digits, trim isSpace cs = sign ++ digits ∧ sign ∈ [[], ['-'], ['+']] ∧ DigitText digits

theorem isDecimal_of_decimalValue? {d : Nat} (h : decimalValue? c = some d) : isDecimal c = true := by
  rw [isDecimal, h, Option.isSome_some]

theorem DigitText.head (h : DigitText cs) : ∃ c rest, cs = c :: rest ∧ isDecimal c = true := by
  cases h with
  | one hc => exact ⟨_, [], rfl, hc⟩
  | cons hc _ => exact ⟨_, _, rfl, hc⟩
  | underscore hc _ => exact ⟨_, _, rfl, hc⟩

theorem digitText_of_moreDigits? {ds : List Nat} (hc : isDecimal c = true)
    (h : moreDigits? cs = some ds) : DigitText (c :: cs) := by
  fun_induction moreDigits? cs generalizing c ds with
  | case1 => exact .one hc
  | case2 x cs ih =>
    obtain ⟨d, hd, h⟩ := Option.bind_eq_some_iff.mp h
    obtain ⟨es, hes, _⟩ := Option.bind_eq_some_iff.mp h
    exact .underscore hc (ih (isDecimal_of_decimalValue? hd) hes)
  | case3 x cs _ ih =>
    obtain ⟨d, hd, h⟩ := Option.bind_eq_some_iff.mp h
    obtain ⟨es, hes, _⟩ := Option.bind_eq_some_iff.mp h
    exact .cons hc (ih (isDecimal_of_decimalValue? hd) hes)

/-- Behind a digit, digits are read as they are in front. -/
theorem moreDigits?_eq_digits? (h : DigitText cs) : moreDigits? cs = digits? cs := by
  obtain ⟨c, rest, rfl, hc⟩ := h.head
  have hne : c ≠ '_' := by
    rintro rfl
    exact absurd hc (by decide)
  rw [moreDigits?, digits?]
  exact fun _ _ hu _ => hne hu

theorem digits?_cons {d : Nat} {ds : List Nat} (hc : decimalValue? c = some d)
    (h : moreDigits? cs = some ds) : digits? (c :: cs) = some (d :: ds) := by
  simp only [digits?, hc, h, Option.bind_eq_bind, Option.bind_some, Option.pure_def]

theorem exists_digits?_iff : (∃ ds, digits? cs = some ds) ↔ DigitText cs := by
  constructor
  · rintro ⟨ds, h⟩
    cases cs with
    | nil => simp [digits?] at h
    | cons c cs =>
      obtain ⟨d, hd, h⟩ := Option.bind_eq_some_iff.mp h
      obtain ⟨es, hes, _⟩ := Option.bind_eq_some_iff.mp h
      exact digitText_of_moreDigits? (isDecimal_of_decimalValue? hd) hes
  · intro h
    induction h with
    | one hc =>
      obtain ⟨d, hd⟩ := Option.isSome_iff_exists.mp hc
      exact ⟨[d], digits?_cons hd rfl⟩
    | cons hc h ih =>
      obtain ⟨d, hd⟩ := Option.isSome_iff_exists.mp hc
      obtain ⟨ds, hds⟩ := ih
      exact ⟨d :: ds, digits?_cons hd ((moreDigits?_eq_digits? h).trans hds)⟩
    | @underscore c cs hc h ih =>
      obtain ⟨d, hd⟩ := Option.isSome_iff_exists.mp hc
      obtain ⟨ds, hds⟩ := ih
      have hskip : moreDigits? ('_' :: cs) = digits? cs := by
        obtain ⟨e, rest, rfl, _⟩ := h.head
        rfl
      exact ⟨d :: ds, digits?_cons hd (hskip.trans hds)⟩

theorem exists_sign (cs : List Char) :
    ∃ sign ∈ [[], ['-'], ['+']], cs = sign ++ (cutSign cs).2 := by
  unfold cutSign
  split
  · exact ⟨['-'], by simp, rfl⟩
  · exact ⟨['+'], by simp, rfl⟩
  · exact ⟨[], by simp, rfl⟩

theorem cutSign_append {sign : List Char} (hs : sign ∈ [[], ['-'], ['+']]) (h : DigitText cs) :
    (cutSign (sign ++ cs)).2 = cs := by
  simp only [List.mem_cons, List.not_mem_nil, or_false] at hs
  rcases hs with rfl | rfl | rfl
  · obtain ⟨c, rest, rfl, hc⟩ := h.head
    rw [List.nil_append, cutSign]
    · rintro rest' ⟨⟩
      exact absurd hc (by decide)
    · rintro rest' ⟨⟩
      exact absurd hc (by decide)
  · rfl
  · rfl

/-- A text is malformed unless it is that of a number; a number may still be too long. -/
theorem readInteger_malformed_iff : readInteger cs = .error .malformed ↔ ¬IsInteger cs := by
  have hread : readInteger cs = .error .malformed ↔
      ¬∃ ds, digits? (cutSign (trim isSpace cs)).2 = some ds := by
    unfold readInteger
    simp only
    split
    next hd => simp [hd]
    next ds hd => split <;> simp [hd]
  rw [hread, exists_digits?_iff]
  refine not_congr ⟨fun h => ?_, ?_⟩
  · obtain ⟨sign, hs, heq⟩ := exists_sign (trim isSpace cs)
    exact ⟨sign, _, heq, hs, h⟩
  · rintro ⟨sign, digits, heq, hs, h⟩
    rwa [heq, cutSign_append hs h]

theorem isInteger_of_integer? {n : Int} (h : integer? cs = some n) : IsInteger cs := by
  by_contra hn
  have hread := readInteger_of_integer? h
  rw [readInteger_malformed_iff.mpr hn] at hread
  cases hread

end Attribution.Text
