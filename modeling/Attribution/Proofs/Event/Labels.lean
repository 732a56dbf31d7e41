import Attribution.Container.Normalize
import Attribution.Proofs.Event.Cleaning
import Attribution.Proofs.Json.Path

namespace Attribution.Event

open Json (at? lookup?)

variable {labels : Assoc String String}

/-- `LastCleaned labels key value`: the last of the labels whose cleaned key is the given one has the
given value when it is cleaned. -/
def LastCleaned (labels : Assoc String String) (key value : String) : Prop :=
  ∃ before l after, labels = before ++ l :: after ∧ Cleaned 256 l.1 key ∧ Cleaned 256 l.2 value ∧
    ∀ later ∈ after, ¬Cleaned 256 later.1 key

/-- No two keys are the same once they are cleaned. -/
def KeysApart (labels : Assoc String String) : Prop :=
  labels.Pairwise fun l later => ∀ key, Cleaned 256 l.1 key → ¬Cleaned 256 later.1 key

/-- What an event tells of the labels of a record. -/
structure TellsLabels (labels told : Assoc String String) : Prop where
  distinct : (Assoc.keys told).Nodup
  /-- Under a key stands what the last label says whose key becomes this one. -/
  find : ∀ key value, Assoc.find? told key = some value ↔ LastCleaned labels key value
  /-- There is one entry for each label exactly if no keys meet. -/
  complete : told.length = labels.length ↔ KeysApart labels
  /-- Then each label has its own entry. -/
  each : KeysApart labels →
    List.Forall₂ (fun l entry => Cleaned 256 l.1 entry.1 ∧ Cleaned 256 l.2 entry.2) labels told

/-- A label as events have it. -/
def cleanLabel (l : String × String) : String × String := (sanitize maxText l.1, sanitize maxText l.2)

theorem cleanLabels_eq (labels : Assoc String String) :
    cleanLabels labels = Assoc.ofPairs (labels.map cleanLabel) := rfl

theorem cleaned_iff {most : Nat} {original s : String} :
    Cleaned most original s ↔ sanitize most original = s := by
  constructor
  · exact fun h => (cleaned_sanitize most original).unique h
  · rintro rfl
    exact cleaned_sanitize most original

theorem keysApart_iff : KeysApart labels ↔ ((labels.map cleanLabel).map (·.1)).Nodup := by
  rw [List.map_map, List.Nodup, List.pairwise_map]
  apply List.Pairwise.iff
  intro l later
  constructor
  · intro h he
    exact h _ (cleaned_sanitize 256 l.1) (cleaned_iff.mpr he.symm)
  · intro hne key hl hlater
    exact hne ((cleaned_iff.mp hl).trans (cleaned_iff.mp hlater).symm)

theorem lastCleaned_iff {key value : String} : LastCleaned labels key value ↔
    ∃ before after, labels.map cleanLabel = before ++ (key, value) :: after ∧
      ∀ entry ∈ after, entry.1 ≠ key := by
  constructor
  · rintro ⟨before, l, after, rfl, hkey, hvalue, hlast⟩
    refine ⟨before.map cleanLabel, after.map cleanLabel, ?_, ?_⟩
    · have hl : cleanLabel l = (key, value) := Prod.ext (cleaned_iff.mp hkey) (cleaned_iff.mp hvalue)
      rw [List.map_append, List.map_cons, hl]
    · rw [List.forall_mem_map]
      exact fun later hm he => hlast later hm (cleaned_iff.mpr he)
  · rintro ⟨before, after, he, hlast⟩
    obtain ⟨front, tail, rfl, _, htail⟩ := List.map_eq_append_iff.mp he
    obtain ⟨l, back, rfl, hl, rfl⟩ := List.map_eq_cons_iff.mp htail
    obtain ⟨hkey, hvalue⟩ := Prod.mk.inj hl
    refine ⟨front, l, back, rfl, cleaned_iff.mpr hkey, cleaned_iff.mpr hvalue, ?_⟩
    intro later hm hc
    exact hlast _ (List.mem_map_of_mem hm) (cleaned_iff.mp hc)

theorem tellsLabels (labels : Assoc String String) : TellsLabels labels (cleanLabels labels) where
  distinct := Assoc.nodup_keys_ofPairs _
  find key value := by rw [lastCleaned_iff, cleanLabels_eq, Assoc.find?_ofPairs_eq_some_iff]
  complete := by
    rw [keysApart_iff, ← Assoc.length_ofPairs_eq_iff, List.length_map, cleanLabels_eq]
  each h := by
    rw [cleanLabels_eq, Assoc.ofPairs_of_nodup (keysApart_iff.mp h), List.forall₂_map_right_iff,
      List.forall₂_same]
    exact fun l _ => ⟨cleaned_sanitize 256 l.1, cleaned_sanitize 256 l.2⟩

theorem labels_toJson (stamp : Stamp) (e : Event) :
    at? [.key "container", .key "labels"] (some (e.toJson stamp)) =
      some (.object (e.container.labels.map fun l => (l.1, .text l.2))) := by
  simp [at?, toJson, containerJson, lookup?]

/-- The event of a container tells of the labels that its record keeps, whatever labels the runtime
gives and whatever length they may have. It is sent with the labels that it tells of. -/
theorem labels_told (container : Wire.Container) (id : String) (labelMax : Int) (hostname : String)
    (thread : Option Thread) :
    let record := ContainerRecord.ofContainer container id labelMax
    let e := build hostname record thread
    TellsLabels record.labels e.container.labels ∧
      ∀ stamp, at? [.key "container", .key "labels"] (some (e.toJson stamp)) =
        some (.object (e.container.labels.map fun l => (l.1, .text l.2))) :=
  ⟨tellsLabels _, fun stamp => labels_toJson stamp _⟩

/-- Two labels whose keys differ in a control character only are one in the event. -/
theorem label_lost :
    let record := ContainerRecord.ofContainer { labels := [("tier", "web"), ("tier\x07", "db")] } "" 100
    Assoc.keys record.labels = ["tier", "tier\x07"] ∧
      (build "" record none).container.labels = [("tier", "db")] := by
  decide +kernel

end Attribution.Event
