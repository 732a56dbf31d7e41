import Attribution.Text.Blank
import Attribution.Text.Cut
import Mathlib.Data.List.Basic

namespace Attribution.Text

variable {sep : Char} {cs part rest : List Char}

theorem forall_head?_append {p : Char → Prop} (hc : ∀ c ∈ cs.head?, p c)
    (hr : ∀ c ∈ rest.head?, p c) : ∀ c ∈ (cs ++ rest).head?, p c := by
  cases cs with
  | nil => exact hr
  | cons c cs => exact hc

theorem forall_getLast?_append {p : Char → Prop} (hc : ∀ c ∈ cs.getLast?, p c)
    (hr : ∀ c ∈ rest.getLast?, p c) : ∀ c ∈ (cs ++ rest).getLast?, p c := by
  cases rest with
  | nil => rwa [List.append_nil]
  | cons d rest => rwa [List.getLast?_append_of_ne_nil _ (List.cons_ne_nil d rest)]

theorem infix_trim (blank : Char → Bool) (cs : List Char) : trim blank cs <:+: cs := by
  have hfront : cs.dropWhile blank <:+: cs := (List.dropWhile_suffix blank).isInfix
  have hback : ((cs.dropWhile blank).reverse.dropWhile blank).reverse <:+: cs.dropWhile blank := by
    rw [← List.reverse_infix, List.reverse_reverse]
    exact (List.dropWhile_suffix blank).isInfix
  exact hback.trans hfront

theorem prefix_cutFirst (sep : Char) (cs : List Char) : (cutFirst sep cs).1 <+: cs := by
  induction cs with
  | nil => simp [cutFirst]
  | cons c cs ih =>
    rw [cutFirst]
    split
    · exact List.nil_prefix
    · exact (List.cons_prefix_cons).mpr ⟨rfl, ih⟩

theorem suffix_of_cutFirst (h : (cutFirst sep cs).2 = some rest) : rest <:+ cs := by
  induction cs with
  | nil => simp [cutFirst] at h
  | cons c cs ih =>
    rw [cutFirst] at h
    split at h
    · obtain rfl := Option.some.inj h
      exact List.suffix_cons c cs
    · exact (ih h).trans (List.suffix_cons c cs)

/-- The first part of a split begins the text; the others stand in it. -/
theorem splitAll_eq_cons (sep : Char) (cs : List Char) :
    ∃ first parts, splitAll sep cs = first :: parts ∧ first <+: cs ∧
      (∀ part ∈ parts, part <:+: cs) ∧ parts.length ≤ cs.length := by
  induction cs with
  | nil => exact ⟨[], [], rfl, List.nil_prefix, by simp, Nat.le_refl _⟩
  | cons c cs ih =>
    obtain ⟨first, parts, hs, hf, hp, hl⟩ := ih
    have hlater : ∀ part ∈ parts, part <:+: c :: cs := fun part hm =>
      (hp part hm).trans (List.suffix_cons c cs).isInfix
    rw [splitAll, hs]
    split
    · refine ⟨[], first :: parts, rfl, List.nil_prefix, ?_, ?_⟩
      · intro part hm
        rcases List.mem_cons.mp hm with rfl | hm
        · exact hf.isInfix.trans (List.suffix_cons c cs).isInfix
        · exact hlater part hm
      · simp only [List.length_cons]
        omega
    · refine ⟨c :: first, parts, rfl, List.cons_prefix_cons.mpr ⟨rfl, hf⟩, hlater, ?_⟩
      simp only [List.length_cons]
      omega

theorem infix_of_mem_splitAll (h : part ∈ splitAll sep cs) : part <:+: cs := by
  obtain ⟨first, parts, hs, hf, hp, _⟩ := splitAll_eq_cons sep cs
  rw [hs] at h
  rcases List.mem_cons.mp h with rfl | hm
  · exact hf.isInfix
  · exact hp part hm

theorem length_splitAll_le (sep : Char) (cs : List Char) :
    (splitAll sep cs).length ≤ cs.length + 1 := by
  obtain ⟨first, parts, hs, _, _, hl⟩ := splitAll_eq_cons sep cs
  rw [hs, List.length_cons]
  omega

theorem splitAll_append (h : sep ∉ part) (rest : List Char) :
    splitAll sep (part ++ sep :: rest) = part :: splitAll sep rest := by
  induction part with
  | nil => simp [splitAll]
  | cons c part ih =>
    obtain ⟨hc, hp⟩ := not_or.mp (mt List.mem_cons.mpr h)
    rw [List.cons_append, splitAll, if_neg (Ne.symm hc), ih hp]

end Attribution.Text
