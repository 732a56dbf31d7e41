import Attribution.Proofs.Text.Integer
import Attribution.Text.Lines
import Mathlib.Data.List.Basic

namespace Attribution.Text

variable {c : Char} {cs : List Char}

section

variable {d : Nat} {ds : List Nat}

theorem decimalValue?_digitChar : ∀ d < 10, decimalValue? (Nat.digitChar d) = some d := by decide

theorem moreDigits?_append (hc : decimalValue? c = some d) (h : moreDigits? cs = some ds) :
    moreDigits? (cs ++ [c]) = some (ds ++ [d]) := by
  have hone : moreDigits? [c] = some [d] := by simp [moreDigits?, hc]
  fun_induction moreDigits? cs generalizing ds with
  | case1 =>
    obtain rfl := Option.some.inj h
    exact hone
  | case2 x cs ih =>
    obtain ⟨e, he, h⟩ := Option.bind_eq_some_iff.mp h
    obtain ⟨es, hes, h⟩ := Option.bind_eq_some_iff.mp h
    obtain rfl := Option.some.inj h
    simp [moreDigits?, he, ih hes]
  | case3 x cs hx ih =>
    obtain ⟨e, he, h⟩ := Option.bind_eq_some_iff.mp h
    obtain ⟨es, hes, h⟩ := Option.bind_eq_some_iff.mp h
    obtain rfl := Option.some.inj h
    have hne : x ≠ '_' := by
      rintro rfl
      have hu : decimalValue? '_' = none := by decide
      simp [hu] at he
    rw [List.cons_append, moreDigits?]
    · simp [he, ih hes]
    · exact fun _ _ hu => (hne hu).elim

theorem digits?_append (hc : decimalValue? c = some d) (h : digits? cs = some ds) :
    digits? (cs ++ [c]) = some (ds ++ [d]) := by
  cases cs with
  | nil => simp [digits?] at h
  | cons x cs =>
    obtain ⟨e, he, h⟩ := Option.bind_eq_some_iff.mp h
    obtain ⟨es, hes, h⟩ := Option.bind_eq_some_iff.mp h
    obtain rfl := Option.some.inj h
    simp [digits?, he, moreDigits?_append hc hes]

theorem exists_digits?_natText (n : Nat) : ∃ ds, digits? (natText n) = some ds ∧ ofDigits ds = n := by
  induction n using Nat.strongRecOn with
  | ind n ih =>
    rw [natText, Nat.toDigits_eq_if (by decide)]
    split
    next hlt =>
      refine ⟨[n], ?_, by simp [ofDigits]⟩
      simp [digits?, moreDigits?, decimalValue?_digitChar n hlt]
    next hge =>
      obtain ⟨ds, hd, hn⟩ := ih (n / 10) (by omega)
      refine ⟨ds ++ [n % 10], digits?_append (decimalValue?_digitChar _ (by omega)) hd, ?_⟩
      rw [ofDigits_append, hn]
      omega

end

theorem isDigit_of_mem_natText {n : Nat} (h : c ∈ natText n) : c.isDigit = true :=
  Nat.isDigit_of_mem_toDigits (by decide) (by decide) h

theorem notMem_natText (h : c.isDigit = false) (n : Nat) : c ∉ natText n := by
  intro hm
  rw [isDigit_of_mem_natText hm] at h
  cases h

theorem natText_ne_nil (n : Nat) : natText n ≠ [] := Nat.toDigits_ne_nil

theorem isBlank_of_isDigit (h : c.isDigit = true) : isBlank c = false := by
  obtain ⟨hl, hh⟩ := Char.isDigit_iff_toNat.mp h
  have h0 : '0'.toNat = 0x30 := rfl
  have h9 : '9'.toNat = 0x39 := rfl
  simp only [isBlank, isSpace, isSeparator, Bool.or_eq_false_iff, Bool.and_eq_false_iff,
    decide_eq_false_iff_not, beq_eq_false_iff_ne]
  omega

theorem isBlank_of_mem_integerText {n : Int} (h : c ∈ integerText n) : isBlank c = false := by
  unfold integerText at h
  split at h
  · rcases List.mem_cons.mp h with rfl | h
    · rfl
    · exact isBlank_of_isDigit (isDigit_of_mem_natText h)
  · exact isBlank_of_isDigit (isDigit_of_mem_natText h)

theorem integerText_ne_nil (n : Int) : integerText n ≠ [] := by
  unfold integerText
  split
  · exact List.cons_ne_nil _ _
  · exact natText_ne_nil _

section

variable {blank : Char → Bool} {rest : List Char}

theorem dropWhile_of_head? {p : Char → Bool} (h : ∀ c ∈ cs.head?, p c = false) :
    cs.dropWhile p = cs := by
  cases cs with
  | nil => rfl
  | cons c cs => simp [h c rfl]

theorem trim_append (hhead : ∀ c ∈ cs.head?, blank c = false)
    (hlast : ∀ c ∈ cs.getLast?, blank c = false) (hrest : ∀ c ∈ rest, blank c = true) :
    trim blank (cs ++ rest) = cs := by
  cases cs with
  | nil =>
    have hnil : (rest ++ []).dropWhile blank = [] := List.dropWhile_append_of_pos hrest
    rw [List.append_nil] at hnil
    simp [trim, hnil]
  | cons c cs =>
    have hfront : (c :: cs ++ rest).dropWhile blank = c :: cs ++ rest :=
      dropWhile_of_head? (by simpa using hhead)
    have hback : (c :: cs).reverse.dropWhile blank = (c :: cs).reverse :=
      dropWhile_of_head? (by simpa only [List.head?_reverse] using hlast)
    rw [trim, hfront, List.reverse_append, List.dropWhile_append_of_pos (by simpa using hrest), hback,
      List.reverse_reverse]

theorem trim_append_left (h : ∀ c ∈ cs, blank c = true) : trim blank (cs ++ rest) = trim blank rest := by
  rw [trim, List.dropWhile_append_of_pos h, trim]

theorem trim_of_ends (hhead : ∀ c ∈ cs.head?, blank c = false)
    (hlast : ∀ c ∈ cs.getLast?, blank c = false) : trim blank cs = cs := by
  have ht : trim blank (cs ++ []) = cs := trim_append hhead hlast (by simp)
  rwa [List.append_nil] at ht

theorem trim_eq_self (h : ∀ c ∈ cs, blank c = false) : trim blank cs = cs :=
  trim_of_ends (fun c hc => h c (List.mem_of_mem_head? hc))
    fun c hc => h c (List.mem_of_mem_getLast? hc)

end

theorem cutSign_natText (n : Nat) : cutSign (natText n) = (false, natText n) := by
  obtain ⟨c, cs, hc⟩ := List.exists_cons_of_ne_nil (natText_ne_nil n)
  have hd : c.isDigit = true := isDigit_of_mem_natText (n := n) (by simp [hc])
  rw [hc]
  unfold cutSign
  split
  next heq =>
    obtain ⟨rfl, rfl⟩ := List.cons.inj heq
    exact absurd hd (by decide)
  next heq =>
    obtain ⟨rfl, rfl⟩ := List.cons.inj heq
    exact absurd hd (by decide)
  next => rfl

theorem integer?_integerText {n : Int} (h : n.natAbs < 10 ^ maxDigits) :
    integer? (integerText n) = some n := by
  obtain ⟨ds, hd, hn⟩ := exists_digits?_natText n.natAbs
  have hlength : ds.length ≤ maxDigits :=
    (digits?_bounds hd).2.trans (Nat.toDigits_length 10 n.natAbs maxDigits (by decide) h)
  have htrim : trim isSpace (integerText n) = integerText n :=
    trim_eq_self fun c hc => (Bool.or_eq_false_iff.mp (isBlank_of_mem_integerText hc)).1
  have hsign : cutSign (integerText n) = (decide (n < 0), natText n.natAbs) := by
    unfold integerText
    split
    next hneg => simp [cutSign, hneg]
    next hpos => simp [cutSign_natText, hpos]
  have hread : readInteger (integerText n) = .ok n := by
    simp only [readInteger, htrim, hsign, hd, if_neg (Nat.not_lt.mpr hlength), hn, decide_eq_true_eq]
    split <;> congr 1 <;> omega
  rw [integer?, hread]

theorem integer?_natText {n : Nat} (h : n < 10 ^ maxDigits) : integer? (natText n) = some (n : Int) := by
  have hn : integerText (n : Int) = natText n := if_neg (by omega)
  rw [← hn]
  exact integer?_integerText h

section

variable {sep : Char} {part rest : List Char}

theorem cutFirst_of_notMem (h : sep ∉ part) : cutFirst sep part = (part, none) := by
  induction part with
  | nil => rfl
  | cons c part ih =>
    obtain ⟨hc, hp⟩ := not_or.mp (mt List.mem_cons.mpr h)
    rw [cutFirst, if_neg (Ne.symm hc), ih hp]

theorem cutFirst_append (h : sep ∉ part) (rest : List Char) :
    cutFirst sep (part ++ sep :: rest) = (part, some rest) := by
  induction part with
  | nil => simp [cutFirst]
  | cons c part ih =>
    obtain ⟨hc, hp⟩ := not_or.mp (mt List.mem_cons.mpr h)
    rw [List.cons_append, cutFirst, if_neg (Ne.symm hc), ih hp]

theorem cutFirst_eq_some_iff {cs : List Char} :
    cutFirst sep cs = (part, some rest) ↔ sep ∉ part ∧ cs = part ++ sep :: rest := by
  constructor
  · intro h
    by_cases hm : sep ∈ cs
    · obtain ⟨first, later, rfl, hfirst⟩ := List.eq_append_cons_of_mem hm
      rw [cutFirst_append hfirst] at h
      obtain ⟨rfl, hl⟩ := Prod.mk.inj h
      obtain rfl := Option.some.inj hl
      exact ⟨hfirst, rfl⟩
    · rw [cutFirst_of_notMem hm] at h
      cases (Prod.mk.inj h).2
  · rintro ⟨h, rfl⟩
    exact cutFirst_append h rest

theorem cutFirst_eq_none_iff {cs : List Char} :
    cutFirst sep cs = (part, none) ↔ sep ∉ cs ∧ part = cs := by
  constructor
  · intro h
    by_cases hm : sep ∈ cs
    · obtain ⟨first, later, rfl, hfirst⟩ := List.eq_append_cons_of_mem hm
      rw [cutFirst_append hfirst] at h
      cases (Prod.mk.inj h).2
    · rw [cutFirst_of_notMem hm] at h
      exact ⟨hm, (Prod.mk.inj h).1.symm⟩
  · rintro ⟨h, rfl⟩
    exact cutFirst_of_notMem h

theorem cutLast?_of_notMem (h : sep ∉ part) : cutLast? sep part = none := by
  induction part with
  | nil => rfl
  | cons c part ih =>
    obtain ⟨hc, hp⟩ := not_or.mp (mt List.mem_cons.mpr h)
    rw [cutLast?, ih hp]
    exact if_neg (Ne.symm hc)

theorem cutLast?_append (part : List Char) (h : sep ∉ rest) :
    cutLast? sep (part ++ sep :: rest) = some (part, rest) := by
  induction part with
  | nil => simp [cutLast?, cutLast?_of_notMem h]
  | cons c part ih => rw [List.cons_append, cutLast?, ih]

theorem splitAll_of_notMem (h : sep ∉ part) : splitAll sep part = [part] := by
  induction part with
  | nil => rfl
  | cons c part ih =>
    obtain ⟨hc, hp⟩ := not_or.mp (mt List.mem_cons.mpr h)
    rw [splitAll, if_neg (Ne.symm hc), ih hp]

theorem mem_intercalate {parts : List (List Char)} (h : c ∈ [sep].intercalate parts) :
    c = sep ∨ ∃ part ∈ parts, c ∈ part := by
  induction parts with
  | nil => cases h
  | cons part parts ih =>
    cases parts with
    | nil => exact .inr ⟨part, by simp, by simpa using h⟩
    | cons next parts =>
      rw [List.intercalate_cons_cons, List.mem_append, List.mem_append, List.mem_singleton] at h
      rcases h with (h | h) | h
      · exact .inr ⟨part, by simp, h⟩
      · exact .inl h
      · rcases ih h with h | ⟨later, hm, hc⟩
        · exact .inl h
        · exact .inr ⟨later, List.mem_cons_of_mem part hm, hc⟩

theorem splitAll_intercalate {parts : List (List Char)} (hne : parts ≠ [])
    (h : ∀ part ∈ parts, sep ∉ part) : splitAll sep ([sep].intercalate parts) = parts := by
  induction parts with
  | nil => exact (hne rfl).elim
  | cons part parts ih =>
    obtain ⟨hpart, hparts⟩ := List.forall_mem_cons.mp h
    cases parts with
    | nil => simpa using splitAll_of_notMem hpart
    | cons next parts =>
      rw [List.intercalate_cons_cons, List.append_assoc, List.singleton_append, splitAll_append hpart,
        ih (by simp) hparts]

end

theorem unifyNewlines_of_notMem (h : '\r' ∉ cs) : unifyNewlines cs = cs := by
  fun_induction unifyNewlines cs with
  | case1 => rfl
  | case2 cs => simp at h
  | case3 c cs _ ih =>
    obtain ⟨hc, hcs⟩ := not_or.mp (mt List.mem_cons.mpr h)
    rw [if_neg (Ne.symm hc), ih hcs]

/-- A text without carriage returns that neither begins nor ends with a blank. -/
structure Bare (cs : List Char) : Prop where
  noReturn : '\r' ∉ cs
  head : ∀ c ∈ cs.head?, isBlank c = false
  last : ∀ c ∈ cs.getLast?, isBlank c = false

theorem bare_of_forall {cs : List Char} (h : ∀ c ∈ cs, isBlank c = false) : Bare cs where
  noReturn hm := absurd (h _ hm) (by decide)
  head c hc := h c (List.mem_of_mem_head? hc)
  last c hc := h c (List.mem_of_mem_getLast? hc)

theorem Bare.append {cs rest : List Char} (hc : Bare cs) (hr : Bare rest) (hne : cs ≠ [])
    (hne' : rest ≠ []) : Bare (cs ++ ' ' :: rest) where
  noReturn hm := by
    rcases List.mem_append.mp hm with hm | hm
    · exact hc.noReturn hm
    · rcases List.mem_cons.mp hm with hm | hm
      · cases hm
      · exact hr.noReturn hm
  head c hm := hc.head c (by rwa [List.head?_append_of_ne_nil _ hne] at hm)
  last c hm := by
    rw [List.getLast?_append_of_ne_nil _ (by simp), List.getLast?_cons_of_ne_nil hne'] at hm
    exact hr.last c hm

theorem bare_integerText (n : Int) : Bare (integerText n) :=
  bare_of_forall fun _ => isBlank_of_mem_integerText

end Attribution.Text
