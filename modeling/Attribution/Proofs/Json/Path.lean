import Attribution.Json.Access
import Mathlib.Data.List.Basic

namespace Attribution.Json

/-- A step into a value: to the member of a name, or to an item. -/
inductive Step where
  | key (name : String)
  | item (index : Nat)

/-- What stands at the end of the path, if anything does. -/
def at? : List Step → Option Json → Option Json
  | [], value => value
  | .key name :: path, some (.object members) => at? path (lookup? members name)
  | .item index :: path, some (.array items) => at? path items[index]?
  | _ :: _, _ => none

/-- Everything off the path is the same. What stands at its end may be anything, and a member there
may be missing from either value. -/
inductive AgreeOff : List Step → Option Json → Option Json → Prop where
  | here {value value' : Option Json} : AgreeOff [] value value'
  | key {name : String} {path : List Step} {members members' : List (String × Json)}
      (others : ∀ k, k ≠ name → lookup? members' k = lookup? members k)
      (inside : AgreeOff path (lookup? members name) (lookup? members' name)) :
      AgreeOff (.key name :: path) (some (.object members)) (some (.object members'))
  | item {index : Nat} {path : List Step} {items items' : List Json}
      (length : items'.length = items.length)
      (others : ∀ k, k ≠ index → items'[k]? = items[k]?)
      (inside : AgreeOff path items[index]? items'[index]?) :
      AgreeOff (.item index :: path) (some (.array items)) (some (.array items'))

variable {name : String} {index : Nat} {path : List Step} {value value' : Option Json}

theorem AgreeOff.of_key (h : AgreeOff (.key name :: path) value value') :
    ∃ members members', value = some (.object members) ∧ value' = some (.object members') ∧
      (∀ k, k ≠ name → lookup? members' k = lookup? members k) ∧
        AgreeOff path (lookup? members name) (lookup? members' name) := by
  cases h with
  | key others inside => exact ⟨_, _, rfl, rfl, others, inside⟩

theorem AgreeOff.of_item (h : AgreeOff (.item index :: path) value value') :
    ∃ items items', value = some (.array items) ∧ value' = some (.array items') ∧
      items'.length = items.length ∧ (∀ k, k ≠ index → items'[k]? = items[k]?) ∧
        AgreeOff path items[index]? items'[index]? := by
  cases h with
  | item length others inside => exact ⟨_, _, rfl, rfl, length, others, inside⟩

/-- Giving a member another value, or a value for the first time, is a change in its place. -/
theorem agreeOff_set (members : List (String × Json)) (name : String) (value : Json) :
    AgreeOff [.key name] (some (.object members))
      (some (.object (members ++ [(name, value)]))) := by
  refine .key ?_ .here
  intro k hk
  simp [lookup?, hk.symm]

theorem agreeOff_remove (members : List (String × Json)) (name : String) :
    AgreeOff [.key name] (some (.object members))
      (some (.object (members.filter fun m => m.1 ≠ name))) := by
  refine .key ?_ .here
  intro k hk
  have hf : ∀ ms : List (String × Json),
      (ms.filter fun m => m.1 ≠ name).find? (fun m => m.1 == k) = ms.find? fun m => m.1 == k := by
    intro ms
    rw [List.find?_filter]
    congr 1
    funext m
    by_cases hm : m.1 = k
    · simp [hm, hk]
    · simp [hm]
  rw [lookup?, lookup?, ← List.filter_reverse, hf]

variable {m m' : List (String × Json)} {key : String}

/-- The last member of the name has the value. -/
def Binds (m : List (String × Json)) (key : String) (value : Json) : Prop :=
  ∃ before after, m = before ++ (key, value) :: after ∧ ∀ other ∈ after, other.1 ≠ key

theorem Binds.lookup? {value : Json} (h : Binds m key value) : lookup? m key = some value := by
  obtain ⟨before, after, rfl, hlast⟩ := h
  have hnone : after.reverse.find? (fun other => other.1 == key) = none := by
    simpa [List.find?_eq_none] using fun name value hm => hlast (name, value) hm
  simp [Json.lookup?, List.find?_append, hnone]

/-- What is looked up under a name is all that the access to a member depends on. -/
theorem textAt_congr (h : lookup? m' key = lookup? m key) : textAt m' key = textAt m key := by
  rw [textAt, textAt, textAt?, textAt?, h]

theorem itemsAt_congr (h : lookup? m' key = lookup? m key) : itemsAt m' key = itemsAt m key := by
  rw [itemsAt, itemsAt, h]

theorem textsAt_congr (h : lookup? m' key = lookup? m key) : textsAt m' key = textsAt m key := by
  rw [textsAt, textsAt, itemsAt_congr h]

theorem membersAt_congr (h : lookup? m' key = lookup? m key) :
    membersAt m' key = membersAt m key := by rw [membersAt, membersAt, h]

theorem membersAt_of_object {inner : List (String × Json)}
    (h : lookup? m key = some (.object inner)) : membersAt m key = inner := by
  simp [membersAt, h, members]

theorem itemsAt_of_array {inner : List Json} (h : lookup? m key = some (.array inner)) :
    itemsAt m key = inner := by simp [itemsAt, h, items]

theorem textAt_of_text {s : String} (h : lookup? m key = some (.text s)) : textAt m key = s := by
  simp [textAt, textAt?, h, text?]

theorem textsAt_of_texts {texts : List String}
    (h : lookup? m key = some (.array (texts.map .text))) : textsAt m key = texts := by
  rw [textsAt, itemsAt_of_array h, List.filterMap_map]
  exact List.filterMap_some

end Attribution.Json
