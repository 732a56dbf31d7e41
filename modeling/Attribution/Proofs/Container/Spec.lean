import Attribution.Container.Spec
import Attribution.Proofs.Container.Place

namespace Attribution.RuntimeSpec

open Json (Step AgreeOff at? lookup?)

variable {m m' : List (String × Json)}

/-- The part of a specification that a member at its top decides. -/
theorem mounts_congr (h : lookup? m' "mounts" = lookup? m "mounts") :
    (ofMembers m').mounts = (ofMembers m).mounts := by
  rw [ofMembers, ofMembers, Json.itemsAt_congr h]

theorem env_congr (h : lookup? m' "process" = lookup? m "process") :
    (ofMembers m').env = (ofMembers m).env := by
  rw [ofMembers, ofMembers, Json.membersAt_congr h]

theorem propagation_congr (h : lookup? m' "linux" = lookup? m "linux") :
    (ofMembers m').propagation = (ofMembers m).propagation := by
  rw [ofMembers, ofMembers, Json.membersAt_congr h]

theorem mounts_of_array {items : List Json} (h : lookup? m "mounts" = some (.array items)) :
    (ofMembers m).mounts = items.map mountOf := by
  rw [ofMembers, Json.itemsAt_of_array h]

/-- A mount of a record. -/
def recordMount (propagation : String) (m : SpecMount) : Mount :=
  let (readonly, mode) := readOptions m.options
  ⟨m.source, m.destination, mode, !readonly, propagation⟩

theorem recordMounts_eq (spec : RuntimeSpec) :
    spec.recordMounts = spec.mounts.map (recordMount spec.propagation) := rfl

/-- The record with what the specification tells. -/
def fill (base : ContainerRecord) (spec : RuntimeSpec) : ContainerRecord :=
  { base with mounts := spec.recordMounts, env := spec.env }

section Lists

variable {α β : Type} {xs ys : List α} {i : Nat}

theorem map_congr_of_others {f : α → β} (ho : ∀ k, k ≠ i → ys[k]? = xs[k]?)
    (hi : ys[i]?.map f = xs[i]?.map f) : ys.map f = xs.map f := by
  apply List.ext_getElem?
  intro k
  rw [List.getElem?_map, List.getElem?_map]
  by_cases hk : k = i
  · rw [hk, hi]
  · rw [ho k hk]

theorem modify_congr_of_others {f : α → α} (ho : ∀ k, k ≠ i → ys[k]? = xs[k]?)
    (hi : ys[i]?.map f = xs[i]?.map f) : ys.modify i f = xs.modify i f := by
  apply List.ext_getElem?
  intro k
  rw [List.getElem?_modify, List.getElem?_modify]
  by_cases hk : i = k
  · subst hk
    simpa using hi
  · simp [hk, ho k (Ne.symm hk)]

/-- Mounts of entries that are the same but for one are the same but for one, and there they share
what the two entries share. -/
theorem modify_recordMounts_congr {items items' : List Json} {f : Mount → Mount}
    {propagation : String} (ho : ∀ k, k ≠ i → items'[k]? = items[k]?)
    (hi : items'[i]?.map (fun j => f (recordMount propagation (mountOf j))) =
      items[i]?.map fun j => f (recordMount propagation (mountOf j))) :
    ((items'.map mountOf).map (recordMount propagation)).modify i f =
      ((items.map mountOf).map (recordMount propagation)).modify i f := by
  apply modify_congr_of_others
  · intro k hk
    simp [List.getElem?_map, ho k hk]
  · simpa [List.getElem?_map, Option.map_map, Function.comp_def] using hi

end Lists

/-- A member of an entry decides about its own part of the mount. -/
theorem blot_congr {e e' : List (String × Json)} {place : SpecPlace} {key : String} {i : Nat}
    (hp : place.entryPart? = some (i, key)) (h : ∀ k, k ≠ key → lookup? e' k = lookup? e k)
    (propagation : String) :
    place.blot (recordMount propagation (mountOf (.object e'))) =
      place.blot (recordMount propagation (mountOf (.object e))) := by
  cases place with
  | source =>
    obtain ⟨rfl, rfl⟩ := Prod.mk.inj (Option.some.inj hp)
    have hd := Json.textAt_congr (h "destination" (by decide))
    have ho := Json.textsAt_congr (h "options" (by decide))
    simp only [SpecPlace.blot, recordMount, mountOf, hd, ho]
  | destination =>
    obtain ⟨rfl, rfl⟩ := Prod.mk.inj (Option.some.inj hp)
    have hs := Json.textAt_congr (h "source" (by decide))
    have ho := Json.textsAt_congr (h "options" (by decide))
    simp only [SpecPlace.blot, recordMount, mountOf, hs, ho]
  | options =>
    obtain ⟨rfl, rfl⟩ := Prod.mk.inj (Option.some.inj hp)
    have hs := Json.textAt_congr (h "source" (by decide))
    have hd := Json.textAt_congr (h "destination" (by decide))
    simp only [SpecPlace.blot, recordMount, mountOf, hs, hd]
  | _ => simp [SpecPlace.entryPart?] at hp

theorem recordMounts_modify_of_entryPart {place : SpecPlace} {i : Nat} {key : String}
    (h : AgreeOff place.path (some (.object m)) (some (.object m')))
    (hp : place.entryPart? = some (i, key)) :
    (ofMembers m').env = (ofMembers m).env ∧
      (ofMembers m').recordMounts.modify i place.blot =
        (ofMembers m).recordMounts.modify i place.blot := by
  rw [SpecPlace.path_of_entryPart? hp] at h
  cases h with
  | key others inside =>
    obtain ⟨items, items', hi, hi', _, ho, hin⟩ := inside.of_item
    obtain ⟨e, e', he, he', heo, _⟩ := hin.of_key
    refine ⟨env_congr (others _ (by decide)), ?_⟩
    rw [recordMounts_eq, recordMounts_eq, mounts_of_array hi, mounts_of_array hi',
      propagation_congr (others _ (by decide))]
    apply modify_recordMounts_congr ho
    rw [he, he', Option.map_some, Option.map_some, blot_congr hp heo]

theorem recordMounts_modify_of_entry {i : Nat}
    (h : AgreeOff [.key "mounts", .item i] (some (.object m)) (some (.object m'))) :
    (ofMembers m').env = (ofMembers m).env ∧
      (ofMembers m').recordMounts.modify i (SpecPlace.mount i).blot =
        (ofMembers m).recordMounts.modify i (SpecPlace.mount i).blot := by
  cases h with
  | key others inside =>
    obtain ⟨items, items', hi, hi', hl, ho, _⟩ := inside.of_item
    refine ⟨env_congr (others _ (by decide)), ?_⟩
    rw [recordMounts_eq, recordMounts_eq, mounts_of_array hi, mounts_of_array hi',
      propagation_congr (others _ (by decide))]
    apply modify_recordMounts_congr ho
    -- Whatever the two entries are, blotting leaves the same; but there must be two of them.
    by_cases hlt : i < items.length
    · have hlt' : i < items'.length := by omega
      simp [SpecPlace.blot, hlt, hlt']
    · have hge' : items'.length ≤ i := by omega
      simp [hge', Nat.le_of_not_lt hlt]

theorem recordMounts_of_elsewhere {name : String} {path : List Step} (hm : name ≠ "mounts")
    (hl : name ≠ "linux")
    (h : AgreeOff (.key name :: path) (some (.object m)) (some (.object m'))) :
    (ofMembers m').recordMounts = (ofMembers m).recordMounts := by
  cases h with
  | key others _ =>
    rw [recordMounts_eq, recordMounts_eq, mounts_congr (others _ hm.symm),
      propagation_congr (others _ hl.symm)]

theorem recordMounts_map_of_linux {path : List Step}
    (h : AgreeOff (.key "linux" :: path) (some (.object m)) (some (.object m'))) :
    (ofMembers m').env = (ofMembers m).env ∧
      (ofMembers m').recordMounts.map SpecPlace.linux.blot =
        (ofMembers m).recordMounts.map SpecPlace.linux.blot := by
  cases h with
  | key others _ =>
    refine ⟨env_congr (others _ (by decide)), ?_⟩
    have hm := mounts_congr (others _ (by decide))
    simp only [recordMounts_eq, hm, List.map_map]
    rfl

/-- What stands in a place decides about its own part of the record only. -/
theorem hide_fill_congr {place : SpecPlace}
    (h : AgreeOff place.path (some (.object m)) (some (.object m'))) (base : ContainerRecord) :
    place.hide (fill base (ofMembers m')) = place.hide (fill base (ofMembers m)) := by
  cases place with
  | process | env =>
    have hm := recordMounts_of_elsewhere (by decide) (by decide) h
    simp only [SpecPlace.hide, fill, hm]
  | linux =>
    obtain ⟨he, hm⟩ := recordMounts_map_of_linux h
    simp only [SpecPlace.hide, fill, he, hm]
  | propagation =>
    obtain ⟨he, hm⟩ := recordMounts_map_of_linux h
    have hb : SpecPlace.propagation.blot = SpecPlace.linux.blot := rfl
    simp only [SpecPlace.hide, fill, he, hb, hm]
  | mounts =>
    cases h with
    | key others _ => simp only [SpecPlace.hide, fill, env_congr (others _ (by decide))]
  | mount i =>
    obtain ⟨he, hm⟩ := recordMounts_modify_of_entry h
    simp only [SpecPlace.hide, fill, he, hm]
  | source | destination | options =>
    obtain ⟨he, hm⟩ := recordMounts_modify_of_entryPart h rfl
    simp only [SpecPlace.hide, fill, he, hm]
  | other name hn =>
    simp only [List.mem_cons, List.not_mem_nil, or_false, not_or] at hn
    have hm := recordMounts_of_elsewhere hn.2.2 hn.2.1 h
    cases h with
    | key others _ => simp only [SpecPlace.hide, fill, hm, env_congr (others _ (Ne.symm hn.1))]

/-- Entries that say the same in one of their members, and everywhere else, are one mount. -/
theorem mountOf_of_alike {e e' : List (String × Json)} {place : SpecPlace} {key : String} {i : Nat}
    (hp : place.entryPart? = some (i, key)) (h : ∀ k, k ≠ key → lookup? e' k = lookup? e k)
    (ha : place.Alike (lookup? e' key) (lookup? e key)) :
    mountOf (.object e') = mountOf (.object e) := by
  cases place with
  | source =>
    obtain ⟨rfl, rfl⟩ := Prod.mk.inj (Option.some.inj hp)
    have hs : Json.textAt e' "source" = Json.textAt e "source" := ha
    have hd := Json.textAt_congr (h "destination" (by decide))
    have ho := Json.textsAt_congr (h "options" (by decide))
    simp only [mountOf, hs, hd, ho]
  | destination =>
    obtain ⟨rfl, rfl⟩ := Prod.mk.inj (Option.some.inj hp)
    have hs := Json.textAt_congr (h "source" (by decide))
    have hd : Json.textAt e' "destination" = Json.textAt e "destination" := ha
    have ho := Json.textsAt_congr (h "options" (by decide))
    simp only [mountOf, hs, hd, ho]
  | options =>
    obtain ⟨rfl, rfl⟩ := Prod.mk.inj (Option.some.inj hp)
    have hs := Json.textAt_congr (h "source" (by decide))
    have hd := Json.textAt_congr (h "destination" (by decide))
    have ho : Json.textsAt e' "options" = Json.textsAt e "options" := ha
    simp only [mountOf, hs, hd, ho]
  | _ => simp [SpecPlace.entryPart?] at hp

theorem mounts_of_alike_entryPart {place : SpecPlace} {key : String} {i : Nat}
    (h : AgreeOff place.path (some (.object m)) (some (.object m')))
    (ha : place.Alike (at? place.path (some (.object m'))) (at? place.path (some (.object m))))
    (hp : place.entryPart? = some (i, key)) : (ofMembers m').mounts = (ofMembers m).mounts := by
  rw [SpecPlace.path_of_entryPart? hp] at h ha
  cases h with
  | key _ inside =>
    obtain ⟨items, items', hi, hi', _, ho, hin⟩ := inside.of_item
    obtain ⟨e, e', he, he', heo, _⟩ := hin.of_key
    simp only [at?, hi, hi', he, he'] at ha
    rw [mounts_of_array hi, mounts_of_array hi']
    apply map_congr_of_others ho
    rw [he, he', Option.map_some, Option.map_some, mountOf_of_alike hp heo ha]

/-- A specification whose document is the same but for one member at the top is the same if the part
that the member decides is. -/
theorem ofMembers_of_elsewhere {name : String} {path : List Step}
    (h : AgreeOff (.key name :: path) (some (.object m)) (some (.object m')))
    (hm : name = "mounts" → (ofMembers m').mounts = (ofMembers m).mounts)
    (he : name = "process" → (ofMembers m').env = (ofMembers m).env)
    (hp : name = "linux" → (ofMembers m').propagation = (ofMembers m).propagation) :
    ofMembers m' = ofMembers m := by
  cases h with
  | key others _ =>
    have hmounts : (ofMembers m').mounts = (ofMembers m).mounts := by
      by_cases hn : name = "mounts"
      · exact hm hn
      · exact mounts_congr (others _ (Ne.symm hn))
    have henv : (ofMembers m').env = (ofMembers m).env := by
      by_cases hn : name = "process"
      · exact he hn
      · exact env_congr (others _ (Ne.symm hn))
    have hpropagation : (ofMembers m').propagation = (ofMembers m).propagation := by
      by_cases hn : name = "linux"
      · exact hp hn
      · exact propagation_congr (others _ (Ne.symm hn))
    rw [RuntimeSpec.mk.injEq]
    exact ⟨hmounts, henv, hpropagation⟩

/-- Documents that say the same in a place, and everywhere else, are one specification. -/
theorem ofMembers_of_alike {place : SpecPlace}
    (h : AgreeOff place.path (some (.object m)) (some (.object m')))
    (ha : place.Alike (at? place.path (some (.object m'))) (at? place.path (some (.object m)))) :
    ofMembers m' = ofMembers m := by
  cases place with
  | process =>
    have hm : Json.membersAt m' "process" = Json.membersAt m "process" := ha
    refine ofMembers_of_elsewhere h (by simp) (fun _ => ?_) (by simp)
    simp only [ofMembers, hm]
  | linux =>
    have hm : Json.membersAt m' "linux" = Json.membersAt m "linux" := ha
    refine ofMembers_of_elsewhere h (by simp) (by simp) (fun _ => ?_)
    simp only [ofMembers, hm]
  | mounts =>
    have hm : Json.itemsAt m' "mounts" = Json.itemsAt m "mounts" := ha
    refine ofMembers_of_elsewhere h (fun _ => ?_) (by simp) (by simp)
    simp only [ofMembers, hm]
  | env =>
    refine ofMembers_of_elsewhere h (by simp) (fun _ => ?_) (by simp)
    cases h with
    | key _ inside =>
      obtain ⟨p, p', hp, hp', _⟩ := inside.of_key
      simp only [SpecPlace.path, at?, hp, hp'] at ha
      simp only [ofMembers, Json.membersAt_of_object hp, Json.membersAt_of_object hp']
      exact ha
  | propagation =>
    refine ofMembers_of_elsewhere h (by simp) (by simp) (fun _ => ?_)
    cases h with
    | key _ inside =>
      obtain ⟨p, p', hp, hp', _⟩ := inside.of_key
      simp only [SpecPlace.path, at?, hp, hp'] at ha
      simp only [ofMembers, Json.membersAt_of_object hp, Json.membersAt_of_object hp']
      exact ha
  | mount i =>
    refine ofMembers_of_elsewhere h (fun _ => ?_) (by simp) (by simp)
    cases h with
    | key _ inside =>
      obtain ⟨items, items', hi, hi', _, ho, _⟩ := inside.of_item
      simp only [SpecPlace.path, at?, hi, hi', SpecPlace.Alike] at ha
      rw [mounts_of_array hi, mounts_of_array hi']
      apply map_congr_of_others ho
      rw [ha]
  | source | destination | options =>
    exact ofMembers_of_elsewhere h (fun _ => mounts_of_alike_entryPart h ha rfl) (by simp) (by simp)
  | other name hn =>
    simp only [List.mem_cons, List.not_mem_nil, or_false, not_or] at hn
    exact ofMembers_of_elsewhere h (absurd · hn.2.2) (absurd · hn.1) (absurd · hn.2.1)

end Attribution.RuntimeSpec
