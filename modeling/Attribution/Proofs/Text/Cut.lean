import Attribution.Text.Cut
import Mathlib.Data.List.Basic

namespace Attribution.Text

variable {word rest cs front : List Char} {c : Char} {n : Nat}

theorem occursIn_iff_infix : occursIn word cs = true ↔ word <:+: cs := by
  induction cs with
  | nil => simp [occursIn]
  | cons d cs ih => simp [occursIn, List.infix_cons_iff, ih]

/-- No occurrence of the word begins behind the place `n` of the text. -/
def NoneBehind (word text : List Char) (n : Nat) : Prop :=
  ∀ before after, text = before ++ word ++ after → before.length ≤ n

theorem noneBehind_append :
    NoneBehind word (front ++ cs) (front.length + n) ↔ NoneBehind word cs n := by
  constructor
  · intro h before after hs
    have hle := h (front ++ before) after (by simp [hs])
    rw [List.length_append] at hle
    omega
  · intro h before after hs
    by_cases hle : before.length ≤ front.length
    · omega
    · -- The occurrence begins in what follows `front`.
      obtain ⟨gap, rfl⟩ : front <+: before :=
        List.prefix_of_prefix_length_le ⟨cs, rfl⟩ ⟨word ++ after, by simp [hs]⟩ (by omega)
      rw [List.append_assoc, List.append_assoc, List.append_cancel_left_eq] at hs
      have hgap := h gap after (by rw [List.append_assoc]; exact hs)
      rw [List.length_append]
      omega

/-- A word has no more than one last place in a text. -/
theorem NoneBehind.unique {front' rest' : List Char} (h : NoneBehind word cs front.length)
    (h' : NoneBehind word cs front'.length) (hs : cs = front ++ word ++ rest)
    (hs' : cs = front' ++ word ++ rest') : front = front' ∧ rest = rest' := by
  have hlength : front.length = front'.length := Nat.le_antisymm (h' _ _ hs) (h _ _ hs')
  have heq : front ++ (word ++ rest) = front' ++ (word ++ rest') := by
    simpa only [List.append_assoc] using hs.symm.trans hs'
  obtain ⟨hfront, hback⟩ := List.append_inj heq hlength
  exact ⟨hfront, List.append_cancel_left hback⟩

/-- A word that shifts onto itself by some text has all its characters in that text. -/
theorem eq_nil_of_append_eq_append {before after : List Char} (hw : c ∈ word) (hc : c ∉ after)
    (h : word ++ after = before ++ word) : after = [] := by
  have hr : after.reverse ++ word.reverse = word.reverse ++ before.reverse := by
    simpa using congrArg List.reverse h
  have hi := congrArg (List.idxOf c) hr
  rw [List.idxOf_append_of_notMem (by simpa using hc),
    List.idxOf_append_of_mem (by simpa using hw)] at hi
  have hn : after.length = 0 := by simpa using hi
  exact List.length_eq_zero_iff.mp hn

/-- A word does not occur again if one of its characters is not in what follows. -/
theorem noneBehind_of_notMem (front : List Char) (hw : c ∈ word) (hc : c ∉ rest) :
    NoneBehind word (front ++ word ++ rest) front.length := by
  rw [List.append_assoc, ← Nat.add_zero front.length, noneBehind_append]
  intro gap after hs
  have hlength := congrArg List.length hs
  simp only [List.length_append] at hlength
  -- A later occurrence ends inside what follows the earlier one.
  obtain ⟨shift, rfl⟩ : after <:+ rest :=
    List.suffix_of_suffix_length_le ⟨_, hs.symm⟩ ⟨word, rfl⟩ (by omega)
  rw [← List.append_assoc, List.append_cancel_right_eq] at hs
  have hshift := eq_nil_of_append_eq_append hw (fun hm => hc (by simp [hm])) hs
  subst hshift
  simp only [List.length_append, List.length_nil] at hlength
  omega

/-- A text is cut around the last occurrence of a word if the word occurs. -/
theorem cutAtLast (word cs : List Char) :
    (¬word <:+: cs ∧ afterLast? word cs = none ∧ beforeLast? word cs = none) ∨
      ∃ front rest, cs = front ++ word ++ rest ∧ NoneBehind word cs front.length ∧
        afterLast? word cs = some rest ∧ beforeLast? word cs = some front := by
  induction cs with
  | nil =>
    cases word with
    | nil => exact .inr ⟨[], [], rfl, fun before after hs => by simp_all, rfl, rfl⟩
    | cons c word => exact .inl ⟨by simp, rfl, rfl⟩
  | cons c cs ih =>
    rw [afterLast?, beforeLast?]
    rcases ih with ⟨hnone, ha, hb⟩ | ⟨front, rest, hs, hlast, ha, hb⟩
    · rw [ha, hb]
      by_cases hp : word.isPrefixOf (c :: cs) = true
      · obtain ⟨rest, hrest⟩ := List.isPrefixOf_iff_prefix.mp hp
        refine .inr ⟨[], rest, hrest.symm, ?_, ?_, by simp only [if_pos hp]⟩
        · intro before after hs
          cases before with
          | nil => exact Nat.le_refl _
          | cons d before => exact (hnone ⟨before, after, (List.cons.inj hs).2.symm⟩).elim
        · simp only [if_pos hp, Option.some.injEq]
          rw [← hrest, List.drop_left]
      · refine .inl ⟨?_, by simp only [if_neg hp], by simp only [if_neg hp]⟩
        rw [List.infix_cons_iff, not_or, ← List.isPrefixOf_iff_prefix]
        exact ⟨hp, hnone⟩
    · rw [ha, hb]
      have hlast' : NoneBehind word ([c] ++ cs) ([c].length + front.length) :=
        noneBehind_append.mpr hlast
      exact .inr ⟨c :: front, rest, by simp [hs], by simpa [Nat.add_comm] using hlast', rfl, rfl⟩

theorem afterLast?_eq_some_iff : afterLast? word cs = some rest ↔
    ∃ front, cs = front ++ word ++ rest ∧ NoneBehind word cs front.length := by
  rcases cutAtLast word cs with ⟨hnone, ha, _⟩ | ⟨front, later, hs, hlast, ha, _⟩
  · refine ⟨fun h => by simp [ha] at h, ?_⟩
    rintro ⟨front, hs, _⟩
    exact (hnone ⟨front, rest, hs.symm⟩).elim
  · rw [ha, Option.some.injEq]
    refine ⟨fun h => ⟨front, h ▸ hs, hlast⟩, ?_⟩
    rintro ⟨front', hs', hlast'⟩
    exact (hlast.unique hlast' hs hs').2

theorem beforeLast?_eq_some_iff : beforeLast? word cs = some front ↔
    ∃ rest, cs = front ++ word ++ rest ∧ NoneBehind word cs front.length := by
  rcases cutAtLast word cs with ⟨hnone, _, hb⟩ | ⟨first, rest, hs, hlast, _, hb⟩
  · refine ⟨fun h => by simp [hb] at h, ?_⟩
    rintro ⟨rest, hs, _⟩
    exact (hnone ⟨front, rest, hs.symm⟩).elim
  · rw [hb, Option.some.injEq]
    refine ⟨fun h => h ▸ ⟨rest, hs, hlast⟩, ?_⟩
    rintro ⟨rest', hs', hlast'⟩
    exact (hlast.unique hlast' hs hs').1

theorem exists_of_afterLast? (h : afterLast? word cs = some rest) :
    ∃ before, cs = before ++ word ++ rest := by
  obtain ⟨before, hs, _⟩ := afterLast?_eq_some_iff.mp h
  exact ⟨before, hs⟩

/-- What has none of the characters of a word in it is all that follows the word's last occurrence. -/
theorem afterLast?_append (before : List Char) (hw : c ∈ word) (hc : c ∉ rest) :
    afterLast? word (before ++ word ++ rest) = some rest :=
  afterLast?_eq_some_iff.mpr ⟨before, rfl, noneBehind_of_notMem before hw hc⟩

theorem dropWord?_eq_dropPrefix? (word cs : List Char) : dropWord? word cs = cs.dropPrefix? word := by
  unfold dropWord?
  split
  next hp =>
    obtain ⟨rest, rfl⟩ := List.isPrefixOf_iff_prefix.mp hp
    rw [List.drop_left]
    exact (List.dropPrefix?_eq_some_iff.mpr ⟨word, rfl, beq_self_eq_true word⟩).symm
  next hp =>
    cases hd : cs.dropPrefix? word with
    | none => rfl
    | some rest =>
      obtain ⟨front, rfl, hf⟩ := List.dropPrefix?_eq_some_iff.mp hd
      obtain rfl := eq_of_beq hf
      exact (hp (List.isPrefixOf_iff_prefix.mpr (List.prefix_append front rest))).elim

end Attribution.Text
