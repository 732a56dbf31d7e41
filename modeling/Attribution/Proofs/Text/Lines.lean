import Attribution.Text.Blank
import Attribution.Text.Lines
import Mathlib.Data.List.Basic

namespace Attribution.Text

variable {α : Type} {f : List Char → List α} {line cs ending rest : List Char}

/-- A text without line boundaries. -/
def OneLine (cs : List Char) : Prop := ∀ c ∈ cs, isLineBoundary c = false

instance (cs : List Char) : Decidable (OneLine cs) := List.decidableBAll _ _

/-- What ends a line: a boundary, or a carriage return with a line feed. -/
def EndsLine (cs : List Char) : Prop :=
  cs = ['\r', '\n'] ∨ ∃ c, isLineBoundary c = true ∧ cs = [c]

theorem isLineBoundary_of_not_blank {c : Char} (h : isBlank c = false) : isLineBoundary c = false := by
  simp only [isBlank, isSpace, isSeparator, Bool.or_eq_false_iff, Bool.and_eq_false_iff,
    decide_eq_false_iff_not, beq_eq_false_iff_ne] at h
  simp only [isLineBoundary, Bool.or_eq_false_iff, Bool.and_eq_false_iff, decide_eq_false_iff_not,
    beq_eq_false_iff_ne]
  omega

theorem splitLinesFrom_append (h : OneLine cs) :
    splitLinesFrom line (cs ++ rest) = splitLinesFrom (cs.reverse ++ line) rest := by
  induction cs generalizing line with
  | nil => rfl
  | cons c cs ih =>
    obtain ⟨hc, hcs⟩ := List.forall_mem_cons.mp h
    have hr : c ≠ '\r' := by
      rintro rfl
      cases hc
    rw [List.cons_append, splitLinesFrom, hc, if_neg Bool.false_ne_true, ih hcs]
    · simp
    · exact fun _ he => (hr he).elim

/-- What is gathered from lines, of which the empty one yields nothing, is that of the line before the
end of a line and that of the lines behind it. -/
theorem flatMap_splitLinesFrom (hf : f [] = []) (h : EndsLine ending) :
    (splitLinesFrom line (ending ++ rest)).flatMap f =
      f line.reverse ++ (splitLines rest).flatMap f := by
  rcases h with rfl | ⟨c, hc, rfl⟩
  · rfl
  · by_cases hmerge : c = '\r' ∧ ∃ cs, rest = '\n' :: cs
    · -- The line feed belongs to the same boundary, so that the empty line before it gets lost.
      obtain ⟨rfl, cs, rfl⟩ := hmerge
      have hfeed : splitLines ('\n' :: cs) = [] :: splitLines cs := rfl
      rw [hfeed, List.flatMap_cons, hf, List.nil_append]
      rfl
    · rw [List.singleton_append, splitLinesFrom, if_pos hc, List.flatMap_cons, splitLines]
      exact fun cs hr hs => hmerge ⟨hr, cs, hs⟩

theorem flatMap_splitLines_of_oneLine (hf : f [] = []) (h : OneLine cs) :
    (splitLines cs).flatMap f = f cs := by
  have hs : splitLinesFrom [] (cs ++ []) = splitLinesFrom (cs.reverse ++ []) [] :=
    splitLinesFrom_append h
  rw [List.append_nil, List.append_nil] at hs
  rw [splitLines, hs, splitLinesFrom]
  cases cs with
  | nil => exact hf.symm
  | cons c cs => simp

/-- What is gathered from the lines of a text that is written line by line. The last one need not be
ended. -/
theorem flatMap_splitLines {β : Type} {text ends : β → List Char} {ls : List β} {last : List Char}
    (hf : f [] = []) (h : ∀ l ∈ ls, OneLine (text l) ∧ EndsLine (ends l)) (hlast : OneLine last) :
    (splitLines ((ls.flatMap fun l => text l ++ ends l) ++ last)).flatMap f =
      (ls.flatMap fun l => f (text l)) ++ f last := by
  induction ls with
  | nil => exact flatMap_splitLines_of_oneLine hf hlast
  | cons l ls ih =>
    obtain ⟨⟨hone, hend⟩, hlines⟩ := List.forall_mem_cons.mp h
    rw [List.flatMap_cons, List.flatMap_cons, splitLines, List.append_assoc, List.append_assoc,
      splitLinesFrom_append hone, List.append_nil, flatMap_splitLinesFrom hf hend,
      List.reverse_reverse, ih hlines, List.append_assoc]

end Attribution.Text
