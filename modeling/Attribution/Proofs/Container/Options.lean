import Attribution.Container.Spec
import Mathlib.Data.List.Induction

namespace Attribution

/-- The option sets the mode of its mount. -/
def SetsMode (option : String) : Prop := "mode=".toList <+: option.toList

instance : DecidablePred SetsMode := fun option =>
  inferInstanceAs (Decidable ("mode=".toList <+: option.toList))

/-- The options say of a mount whether it is read-only, and its mode. -/
structure OptionsSay (options : List String) (readonly : Bool) (mode : String) : Prop where
  readonly : "ro" ∈ options ↔ readonly = true
  mode : (∃ before after, options = before ++ ("mode=" ++ mode) :: after ∧
      ∀ option ∈ after, ¬SetsMode option) ∨
    mode = "" ∧ ∀ option ∈ options, ¬SetsMode option

namespace RuntimeSpec

variable {options : List String} {option mode : String}

theorem readOptions_concat (options : List String) (option : String) :
    readOptions (options ++ [option]) =
      if option = "ro" then (true, (readOptions options).2)
      else
        match Text.dropWord? "mode=".toList option.toList with
        | some value => ((readOptions options).1, String.ofList value)
        | none => readOptions options := by
  rw [readOptions, List.foldl_append]
  rfl

theorem readOptions_concat_ro (options : List String) :
    readOptions (options ++ ["ro"]) = (true, (readOptions options).2) := by
  rw [readOptions_concat, if_pos rfl]

theorem setsMode_mode (mode : String) : SetsMode ("mode=" ++ mode) :=
  ⟨mode.toList, (String.toList_append).symm⟩

theorem mode_ne_ro (mode : String) : "mode=" ++ mode ≠ "ro" := by
  intro h
  have hm : SetsMode "ro" := h ▸ setsMode_mode mode
  revert hm
  decide

theorem readOptions_concat_mode (options : List String) (mode : String) :
    readOptions (options ++ ["mode=" ++ mode]) = ((readOptions options).1, mode) := by
  have hdrop : Text.dropWord? "mode=".toList ("mode=" ++ mode).toList = some mode.toList := by
    simp [Text.dropWord?, String.toList_append]
  rw [readOptions_concat, if_neg (mode_ne_ro mode), hdrop]
  exact congrArg (Prod.mk _) (String.ofList_toList)

theorem readOptions_concat_other (hro : option ≠ "ro") (hmode : ¬SetsMode option) :
    readOptions (options ++ [option]) = readOptions options := by
  have hdrop : Text.dropWord? "mode=".toList option.toList = none :=
    if_neg (mt List.isPrefixOf_iff_prefix.mp hmode)
  rw [readOptions_concat, if_neg hro, hdrop]

theorem option_cases (option : String) :
    option = "ro" ∨ (∃ mode, option = "mode=" ++ mode) ∨ option ≠ "ro" ∧ ¬SetsMode option := by
  by_cases hro : option = "ro"
  · exact .inl hro
  · by_cases hmode : SetsMode option
    · obtain ⟨mode, hm⟩ := hmode
      have hlist : ("mode=" ++ String.ofList mode).toList = "mode=".toList ++ mode := by
        simp [String.toList_append]
      exact .inr (.inl ⟨String.ofList mode, String.toList_inj.mp (hm.symm.trans hlist.symm)⟩)
    · exact .inr (.inr ⟨hro, hmode⟩)

theorem readOptions_fst (options : List String) :
    (readOptions options).1 = true ↔ "ro" ∈ options := by
  induction options using List.reverseRecOn with
  | nil => simp [readOptions]
  | append_singleton options option ih =>
    rcases option_cases option with rfl | ⟨mode, rfl⟩ | ⟨hro, hmode⟩
    · simp [readOptions_concat_ro]
    · simp [readOptions_concat_mode, ih, (mode_ne_ro mode).symm]
    · simp [readOptions_concat_other hro hmode, ih, Ne.symm hro]

/-- Behind the last option that sets the mode the mode stays. -/
theorem readOptions_snd_append {after : List String} (h : ∀ option ∈ after, ¬SetsMode option) :
    (readOptions (options ++ after)).2 = (readOptions options).2 := by
  induction after using List.reverseRecOn with
  | nil => rw [List.append_nil]
  | append_singleton after option ih =>
    have hafter := ih fun o ho => h o (List.mem_append_left _ ho)
    rw [← List.append_assoc]
    rcases option_cases option with rfl | ⟨mode, rfl⟩ | ⟨hro, hmode⟩
    · rw [readOptions_concat_ro, hafter]
    · exact (h ("mode=" ++ mode) (by simp) (setsMode_mode mode)).elim
    · rw [readOptions_concat_other hro hmode, hafter]

theorem readOptions_of_say {readonly : Bool} (h : OptionsSay options readonly mode) :
    readOptions options = (readonly, mode) := by
  apply Prod.ext
  · exact Bool.eq_iff_iff.mpr ((readOptions_fst options).trans h.readonly)
  · rcases h.mode with ⟨before, after, rfl, hafter⟩ | ⟨rfl, hnone⟩
    · rw [List.append_cons, readOptions_snd_append hafter, readOptions_concat_mode]
    · have he : (readOptions ([] ++ options)).2 = (readOptions []).2 := readOptions_snd_append hnone
      rwa [List.nil_append] at he

end RuntimeSpec
end Attribution
