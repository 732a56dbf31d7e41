import Attribution.Proofs.Event.Sanitize
import Attribution.Proofs.Table
import Mathlib.Data.List.Forall2

namespace Attribution

/-- Control characters other than the tab, the line feed and the carriage return. -/
def IsControl (c : Char) : Prop :=
  c.toNat ≤ 0x08 ∨ c.toNat = 0x0b ∨ c.toNat = 0x0c ∨ 0x0e ≤ c.toNat ∧ c.toNat ≤ 0x1f ∨
    c.toNat = 0x7f

instance : DecidablePred IsControl := fun c =>
  inferInstanceAs (Decidable (c.toNat ≤ 0x08 ∨ c.toNat = 0x0b ∨ c.toNat = 0x0c ∨
    0x0e ≤ c.toNat ∧ c.toNat ≤ 0x1f ∨ c.toNat = 0x7f))

/-- `Cleaned most original s`: the text is the beginning of the original one without its control
characters, as much of it as the length allows. -/
structure Cleaned (most : Nat) (original s : String) : Prop where
  clean : ∀ c ∈ s.toList, ¬IsControl c
  short : s.length ≤ most
  begins : s.toList <+: original.toList.filter fun c => ¬IsControl c
  full : s.length = min most (original.toList.filter fun c => ¬IsControl c).length

theorem Cleaned.unique {most : Nat} {original s t : String} (hs : Cleaned most original s)
    (ht : Cleaned most original t) : s = t := by
  have hl : s.toList.length = t.toList.length := by
    rw [String.length_toList, String.length_toList]
    exact hs.full.trans ht.full.symm
  have hp := List.prefix_of_prefix_length_le hs.begins ht.begins hl.le
  exact String.toList_inj.mp (hp.eq_of_length hl)

namespace Event

theorem isStripped_iff (c : Char) : isStripped c = true ↔ IsControl c := by
  simp [isStripped, IsControl, or_assoc]

theorem toList_sanitize (most : Nat) (s : String) :
    (sanitize most s).toList = (s.toList.filter fun c => ¬IsControl c).take most := by
  have hf : (s.toList.filter fun c => !isStripped c) = s.toList.filter fun c => ¬IsControl c := by
    apply List.filter_congr
    intro c _
    have hc := isStripped_iff c
    by_cases h : IsControl c
    · simp [h, hc.mpr h]
    · simp [h, mt hc.mp h]
  rw [sanitize, cut, if_pos (Int.natCast_nonneg most), Int.toNat_natCast, String.toList_ofList, hf]

theorem cleaned_sanitize (most : Nat) (s : String) : Cleaned most s (sanitize most s) where
  clean c hc := by
    rw [toList_sanitize] at hc
    simpa using (List.mem_filter.mp (List.mem_of_mem_take hc)).2
  short := by
    rw [← String.length_toList, toList_sanitize]
    exact List.length_take_le _ _
  begins := by
    rw [toList_sanitize]
    exact List.take_prefix _ _
  full := by rw [← String.length_toList, toList_sanitize, List.length_take]

theorem sanitize_of_cleaned {most : Nat} {original s : String} (h : Cleaned most original s) :
    sanitize most s = s := by
  apply sanitize_of_clean _ h.short
  intro c hc
  exact Bool.eq_false_iff.mpr (mt (isStripped_iff c).mp (h.clean c hc))

theorem sanitize_sanitize (most : Nat) (s : String) :
    sanitize most (sanitize most s) = sanitize most s :=
  sanitize_of_cleaned (cleaned_sanitize most s)

/-- Every part of a mount is cleaned, and whether it can be written to is kept. -/
structure CleanedMount (original m : Mount) : Prop where
  source : Cleaned 512 original.source m.source
  destination : Cleaned 512 original.destination m.destination
  mode : Cleaned 256 original.mode m.mode
  propagation : Cleaned 256 original.propagation m.propagation
  readWrite : m.readWrite = original.readWrite

theorem cleanedMount (m : Mount) : CleanedMount m (cleanMount m) :=
  ⟨cleaned_sanitize 512 _, cleaned_sanitize 512 _, cleaned_sanitize 256 _, cleaned_sanitize 256 _,
    rfl⟩

theorem cleanMount_cleanMount (m : Mount) : cleanMount (cleanMount m) = cleanMount m := by
  have h := sanitize_sanitize
  simp only [cleanMount, Mount.mk.injEq, true_and]
  exact ⟨h 512 _, h 512 _, h 256 _, h 256 _⟩

/-- Every label is cleaned. Where cleaned keys are the same, the last label is told. -/
structure CleanedLabels (original labels : Assoc String String) : Prop where
  distinct : (Assoc.keys labels).Nodup
  told : ∀ l ∈ original, ∃ key ∈ Assoc.keys labels, Cleaned 256 l.1 key
  known : ∀ l ∈ labels, ∃ before o after, original = before ++ o :: after ∧ Cleaned 256 o.1 l.1 ∧
    Cleaned 256 o.2 l.2 ∧ ∀ later ∈ after, ¬Cleaned 256 later.1 l.1

theorem cleanedLabels (labels : Assoc String String) :
    CleanedLabels labels (cleanLabels labels) where
  distinct := Assoc.nodup_keys_ofPairs _
  told l hl := by
    refine ⟨sanitize maxText l.1, Assoc.mem_keys_ofPairs.mpr ?_, cleaned_sanitize 256 _⟩
    rw [List.map_map]
    exact List.mem_map_of_mem hl
  known l hl := by
    obtain ⟨before, after, he, hlast⟩ := Assoc.exists_of_mem_ofPairs hl
    obtain ⟨front, tail, rfl, _, htail⟩ := List.map_eq_append_iff.mp he
    obtain ⟨o, back, rfl, rfl, rfl⟩ := List.map_eq_cons_iff.mp htail
    refine ⟨front, o, back, rfl, cleaned_sanitize 256 _, cleaned_sanitize 256 _, ?_⟩
    intro later hm hc
    have hs := hc.unique (cleaned_sanitize 256 later.1)
    exact hlast _ (List.mem_map_of_mem hm) hs.symm

theorem cleanLabels_cleanLabels (labels : Assoc String String) :
    cleanLabels (cleanLabels labels) = cleanLabels labels := by
  have hk := (cleanedLabels labels).distinct
  have hsame : ((cleanLabels labels).map fun l => (sanitize maxText l.1, sanitize maxText l.2)) =
      cleanLabels labels := by
    conv_rhs => rw [← List.map_id (cleanLabels labels)]
    apply List.map_congr_left
    intro l hl
    obtain ⟨_, _, _, _, hkey, hvalue, _⟩ := (cleanedLabels labels).known l hl
    exact Prod.ext (sanitize_of_cleaned hkey) (sanitize_of_cleaned hvalue)
  -- All keys are different already, so none of them takes the place of another.
  rw [cleanLabels, hsame]
  exact Assoc.ofPairs_of_nodup hk

theorem cleanRecord_cleanRecord (r : ContainerRecord) :
    cleanRecord (cleanRecord r) = cleanRecord r := by
  have h := sanitize_sanitize
  have hm : (r.mounts.map cleanMount).map cleanMount = r.mounts.map cleanMount := by
    simp [List.map_map, Function.comp_def, cleanMount_cleanMount]
  have he : (r.env.map (sanitize maxEnv)).map (sanitize maxEnv) = r.env.map (sanitize maxEnv) := by
    rw [List.map_map]
    exact List.map_congr_left fun s _ => h 1024 s
  simp only [cleanRecord, ContainerRecord.mk.injEq, cleanLabels_cleanLabels, hm, he, true_and,
    and_true]
  exact ⟨h 256 _, h 256 _, h 256 _, h 256 _, h 512 _, h 256 _, h 256 _⟩

/-- Every part of a record is cleaned; what is no text is kept. -/
structure CleanedRecord (original r : ContainerRecord) : Prop where
  id : Cleaned 256 original.id r.id
  fullId : Cleaned 256 original.fullId r.fullId
  name : Cleaned 256 original.name r.name
  image : Cleaned 256 original.image r.image
  imageRepo : Cleaned 512 original.imageRepo r.imageRepo
  imageTag : Cleaned 256 original.imageTag r.imageTag
  imageDigest : Cleaned 256 original.imageDigest r.imageDigest
  labels : CleanedLabels original.labels r.labels
  mounts : List.Forall₂ CleanedMount original.mounts r.mounts
  env : List.Forall₂ (Cleaned 1024) original.env r.env
  kept : r.type = original.type ∧ r.limits = original.limits ∧ r.lookupState = original.lookupState

theorem cleanedRecord (r : ContainerRecord) : CleanedRecord r (cleanRecord r) where
  id := cleaned_sanitize 256 _
  fullId := cleaned_sanitize 256 _
  name := cleaned_sanitize 256 _
  image := cleaned_sanitize 256 _
  imageRepo := cleaned_sanitize 512 _
  imageTag := cleaned_sanitize 256 _
  imageDigest := cleaned_sanitize 256 _
  labels := cleanedLabels r.labels
  mounts := by
    rw [cleanRecord, List.forall₂_map_right_iff, List.forall₂_same]
    exact fun m _ => cleanedMount m
  env := by
    rw [cleanRecord, List.forall₂_map_right_iff, List.forall₂_same]
    exact fun s _ => cleaned_sanitize 1024 s
  kept := ⟨rfl, rfl, rfl⟩

/-- The command of a thread is cleaned; its numbers are kept. -/
structure CleanedThread (original : Thread) (t : ThreadView) : Prop where
  comm : Cleaned 256 original.comm t.comm
  kept : t.tid = original.tid ∧ t.pid = original.pid

end Event
end Attribution
