import Attribution.Assoc
import Mathlib.Data.Finset.Card
import Mathlib.Data.List.Induction

namespace Attribution.Assoc

variable {α β : Type} [DecidableEq α]

theorem mem_keys_iff_isSome_find? {table : Assoc α β} {key : α} :
    key ∈ keys table ↔ (find? table key).isSome = true := by
  induction table with
  | nil => simp [keys, find?]
  | cons p rest ih =>
    obtain ⟨k, v⟩ := p
    by_cases hk : k = key
    · simp [keys, find?, hk]
    · simpa [keys, find?, hk, Ne.symm hk] using ih

theorem mem_of_find? {table : Assoc α β} {key : α} {value : β} (h : find? table key = some value) :
    (key, value) ∈ table := by
  induction table with
  | nil => simp [find?] at h
  | cons p rest ih =>
    obtain ⟨k, v⟩ := p
    by_cases hk : k = key
    · simp only [find?, if_pos hk, Option.some.injEq] at h
      simp [hk, h]
    · simp only [find?, if_neg hk] at h
      exact List.mem_cons_of_mem _ (ih h)

theorem set_eq_append {table : Assoc α β} {key : α} (h : find? table key = none) (value : β) :
    set table key value = table ++ [(key, value)] := by
  induction table with
  | nil => rfl
  | cons p rest ih =>
    obtain ⟨k, v⟩ := p
    by_cases hk : k = key
    · simp [find?, hk] at h
    · simp only [find?, if_neg hk] at h
      simp [set, hk, ih h]

theorem find?_erase_of_ne {table : Assoc α β} {key k : α} (h : k ≠ key) :
    find? (erase table key) k = find? table k := by
  induction table with
  | nil => rfl
  | cons p rest ih =>
    obtain ⟨j, v⟩ := p
    by_cases hj : j = key
    · subst hj
      simp [erase, find?, Ne.symm h]
    · simp [erase, find?, hj, ih]

theorem keys_erase_sublist (table : Assoc α β) (key : α) :
    (keys (erase table key)).Sublist (keys table) := by
  induction table with
  | nil => exact List.Sublist.refl _
  | cons p rest ih =>
    obtain ⟨k, v⟩ := p
    by_cases hk : k = key
    · simp [keys, erase, hk]
    · simpa [keys, erase, hk] using ih

theorem keys_set (table : Assoc α β) (key : α) (value : β) :
    keys (set table key value) = if key ∈ keys table then keys table else keys table ++ [key] := by
  induction table with
  | nil => rfl
  | cons p rest ih =>
    obtain ⟨k, v⟩ := p
    by_cases hk : k = key
    · simp [keys, set, hk]
    · have hc : keys ((k, v) :: rest) = k :: keys rest := rfl
      have hs : keys (set ((k, v) :: rest) key value) = k :: keys (set rest key value) := by
        simp [keys, set, hk]
      rw [hs, ih, hc]
      by_cases hm : key ∈ keys rest
      · simp [hm]
      · simp [hm, Ne.symm hk]

theorem nodup_keys_set {table : Assoc α β} (h : (keys table).Nodup) (key : α) (value : β) :
    (keys (set table key value)).Nodup := by
  rw [keys_set]
  split
  next => exact h
  next hk =>
    rw [List.nodup_append]
    refine ⟨h, List.nodup_singleton key, ?_⟩
    intro k hm j hj he
    rw [List.mem_singleton] at hj
    exact hk (hj ▸ he ▸ hm)

theorem ofPairs_concat (pairs : List (α × β)) (p : α × β) :
    ofPairs (pairs ++ [p]) = set (ofPairs pairs) p.1 p.2 := by
  simp [ofPairs, List.foldl_append]

theorem nodup_keys_ofPairs (pairs : List (α × β)) : (keys (ofPairs pairs)).Nodup := by
  induction pairs using List.reverseRecOn with
  | nil => exact List.nodup_nil
  | append_singleton pairs p ih =>
    rw [ofPairs_concat]
    exact nodup_keys_set ih p.1 p.2

theorem mem_set {table : Assoc α β} (h : (keys table).Nodup) {key : α} {value : β} {p : α × β}
    (hp : p ∈ set table key value) : p = (key, value) ∨ p ∈ table ∧ p.1 ≠ key := by
  induction table with
  | nil => exact .inl (List.mem_singleton.mp hp)
  | cons q rest ih =>
    obtain ⟨k, v⟩ := q
    obtain ⟨hn, hr⟩ := List.nodup_cons.mp h
    by_cases hk : k = key
    · rw [set, if_pos hk] at hp
      rcases List.mem_cons.mp hp with rfl | hm
      · exact .inl (by rw [hk])
      · have hne : p.1 ≠ key := by
          intro he
          have hp : p.1 ∈ keys rest := List.mem_map_of_mem hm
          rw [he, ← hk] at hp
          exact hn hp
        exact .inr ⟨List.mem_cons_of_mem _ hm, hne⟩
    · rw [set, if_neg hk] at hp
      rcases List.mem_cons.mp hp with rfl | hm
      · exact .inr ⟨List.mem_cons_self, hk⟩
      · exact (ih hr hm).imp_right fun hm => ⟨List.mem_cons_of_mem _ hm.1, hm.2⟩

/-- Under each key stands the value that was set last. -/
theorem exists_of_mem_ofPairs {pairs : List (α × β)} {p : α × β} (h : p ∈ ofPairs pairs) :
    ∃ before after, pairs = before ++ p :: after ∧ ∀ q ∈ after, q.1 ≠ p.1 := by
  induction pairs using List.reverseRecOn with
  | nil => simp [ofPairs] at h
  | append_singleton pairs q ih =>
    rw [ofPairs_concat] at h
    rcases mem_set (nodup_keys_ofPairs pairs) h with rfl | ⟨hm, hne⟩
    · exact ⟨pairs, [], rfl, by simp⟩
    · obtain ⟨before, after, rfl, ha⟩ := ih hm
      refine ⟨before, after ++ [q], by simp, ?_⟩
      intro r hr
      rcases List.mem_append.mp hr with hr | hr
      · exact ha r hr
      · rw [List.mem_singleton.mp hr]
        exact Ne.symm hne

theorem find?_ofPairs_eq_some_iff {pairs : List (α × β)} {key : α} {value : β} :
    find? (ofPairs pairs) key = some value ↔
      ∃ before after, pairs = before ++ (key, value) :: after ∧ ∀ p ∈ after, p.1 ≠ key := by
  constructor
  · intro h
    exact exists_of_mem_ofPairs (mem_of_find? h)
  · rintro ⟨before, after, rfl, ha⟩
    induction after using List.reverseRecOn with
    | nil => rw [ofPairs_concat, find?_set, if_pos rfl]
    | append_singleton after q ih =>
      rw [← List.cons_append, ← List.append_assoc, ofPairs_concat, find?_set,
        if_neg (Ne.symm (ha q (by simp)))]
      exact ih fun p hp => ha p (List.mem_append_left _ hp)

theorem mem_keys_ofPairs {pairs : List (α × β)} {key : α} :
    key ∈ keys (ofPairs pairs) ↔ key ∈ pairs.map (·.1) := by
  induction pairs using List.reverseRecOn with
  | nil => rfl
  | append_singleton pairs q ih =>
    rw [ofPairs_concat, keys_set, List.map_append, List.map_singleton]
    split
    next hq =>
      rw [ih, List.mem_append, List.mem_singleton]
      exact ⟨.inl, fun h => h.elim id fun he => ih.mp (he ▸ hq)⟩
    next => rw [List.mem_append, List.mem_append, ih]

theorem ofPairs_of_nodup {pairs : List (α × β)} (h : (pairs.map (·.1)).Nodup) :
    ofPairs pairs = pairs := by
  induction pairs using List.reverseRecOn with
  | nil => rfl
  | append_singleton pairs q ih =>
    rw [List.map_append, List.nodup_append] at h
    obtain ⟨hp, _, hq⟩ := h
    rw [ofPairs_concat, ih hp]
    apply set_eq_append
    have hn : q.1 ∉ keys pairs := fun hm => hq q.1 hm q.1 (by simp) rfl
    simpa using mt mem_keys_iff_isSome_find?.mpr hn

theorem length_ofPairs_eq_iff {pairs : List (α × β)} :
    (ofPairs pairs).length = pairs.length ↔ (pairs.map (·.1)).Nodup := by
  constructor
  · intro h
    have hkeys := nodup_keys_ofPairs pairs
    have hsub : (keys (ofPairs pairs)).Subperm (pairs.map (·.1)) :=
      hkeys.subperm fun _ hk => mem_keys_ofPairs.mp hk
    have hlength : (pairs.map (·.1)).length ≤ (keys (ofPairs pairs)).length := by simp [keys, h]
    exact (hsub.perm_of_length_le hlength).nodup_iff.mp hkeys
  · intro h
    rw [ofPairs_of_nodup h]

theorem nodup_keys_erase {table : Assoc α β} (h : (keys table).Nodup) (key : α) :
    (keys (erase table key)).Nodup :=
  h.sublist (keys_erase_sublist table key)

theorem find?_erase_self {table : Assoc α β} (h : (keys table).Nodup) (key : α) :
    find? (erase table key) key = none := by
  induction table with
  | nil => rfl
  | cons p rest ih =>
    obtain ⟨k, v⟩ := p
    obtain ⟨hn, hr⟩ := List.nodup_cons.mp h
    by_cases hk : k = key
    · subst hk
      have hf : ¬(find? rest k).isSome = true := fun hs => hn (mem_keys_iff_isSome_find?.mpr hs)
      simpa [erase] using hf
    · simpa [erase, find?, hk] using ih hr

/-- The length of a table is the number of keys that something is found under. -/
theorem exists_card_eq_length {table : Assoc α β} (h : (keys table).Nodup) :
    ∃ stored : Finset α, stored.card = table.length ∧
      ∀ key, key ∈ stored ↔ (find? table key).isSome = true := by
  refine ⟨⟨keys table, h⟩, List.length_map _, fun key => ?_⟩
  exact mem_keys_iff_isSome_find?

end Attribution.Assoc
