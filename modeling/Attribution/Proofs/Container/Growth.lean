import Attribution.Container.Normalize
import Attribution.Proofs.Wire.Grammar
import Attribution.Proofs.Wire.Undeclared

namespace Attribution.Wire.Container

variable {depth : Nat} {bs bs' : Bytes} {c d : Container}

/-- `Grown bs bs'`: the second bytes are the first with undeclared fields between the fields. -/
inductive Grown (bs : Bytes) : Bytes → Prop where
  | same : Grown bs bs
  | insert {before after field : Bytes} {number : Nat} (earlier : Grown bs (before ++ after))
      (boundary : (fields maxDepth before).isSome) (h : SpellsField maxDepth number field)
      (hn : number ≠ 0) (undeclared : number ∉ numbers) : Grown bs (before ++ (field ++ after))

theorem readOnto_withUnknown (h : readOnto (set depth) depth c bs = some d) (kept : Bytes) :
    ∃ kept', readOnto (set depth) depth { c with unknown := kept } bs =
      some { d with unknown := kept' } := by
  obtain ⟨fs, hf, hd⟩ := readOnto_eq_some.mp h
  suffices hs : ∃ kept', fs.foldlM (set depth) { c with unknown := kept } =
      some { d with unknown := kept' } by
    obtain ⟨kept', hk⟩ := hs
    exact ⟨kept', readOnto_eq_some.mpr ⟨fs, hf, hk⟩⟩
  clear h hf
  -- A label with fields of its own adds to what is kept, so this differs from field to field.
  induction fs generalizing c kept with
  | nil =>
    obtain rfl := Option.some.inj hd
    exact ⟨kept, rfl⟩
  | cons f fs ih =>
    rw [List.foldlM_cons] at hd
    obtain ⟨middle, hm, hd⟩ := Option.bind_eq_some_iff.mp hd
    obtain ⟨kept₁, h₁⟩ := set_withUnknown hm kept
    obtain ⟨kept₂, h₂⟩ := ih kept₁ hd
    refine ⟨kept₂, ?_⟩
    rw [List.foldlM_cons, h₁]
    exact h₂

theorem readOnto_insert {start : Container} {before after field : Bytes} {number : Nat}
    (h : readOnto (set depth) depth start (before ++ after) = some d)
    (boundary : (fields depth before).isSome) (hf : SpellsField depth number field)
    (hn : number ≠ 0) (undeclared : number ∉ numbers) :
    ∃ kept, readOnto (set depth) depth start (before ++ (field ++ after)) =
      some { d with unknown := kept } := by
  obtain ⟨middle, hb, ha⟩ := readOnto_split h boundary
  obtain ⟨payload, hr⟩ := hf.reads hn
  have hd : Field.isDeclared numbers ⟨number, payload, field⟩ = false :=
    Field.isDeclared_of_notMem undeclared
  have hset : middle.set depth ⟨number, payload, field⟩ =
      some { middle with unknown := middle.unknown ++ field } := set_of_undeclared hd middle
  obtain ⟨kept, hk⟩ := readOnto_withUnknown ha (middle.unknown ++ field)
  exact ⟨kept, readOnto_append hb (readOnto_append (readOnto_raw hr hset) hk)⟩

/-- Undeclared fields leave the declared ones alone, and with them the record. -/
theorem decode_grown (h : decode bs = some c) (hg : Grown bs bs') :
    ∃ kept, decode bs' = some { c with unknown := kept } ∧ ∀ id labelMax,
      ContainerRecord.ofContainer { c with unknown := kept } id labelMax =
        ContainerRecord.ofContainer c id labelMax := by
  suffices hs : ∃ kept, decode bs' = some { c with unknown := kept } by
    obtain ⟨kept, hk⟩ := hs
    exact ⟨kept, hk, fun id labelMax => rfl⟩
  induction hg with
  | same => exact ⟨c.unknown, h⟩
  | insert earlier boundary hf hn undeclared ih =>
    obtain ⟨kept, hk⟩ := ih
    obtain ⟨kept', hk'⟩ := readOnto_insert hk boundary hf hn undeclared
    exact ⟨kept', hk'⟩

/-- A group between the id and the image of a container. -/
theorem decode_grown_group :
    decode [10, 1, 97, 26, 1, 98] = some { id := "a", image := "b" } ∧
      Grown [10, 1, 97, 26, 1, 98] [10, 1, 97, 123, 8, 5, 124, 26, 1, 98] ∧
      ∃ kept, decode [10, 1, 97, 123, 8, 5, 124, 26, 1, 98] =
          some { id := "a", image := "b", unknown := kept } ∧
        ∀ id labelMax,
          ContainerRecord.ofContainer { id := "a", image := "b", unknown := kept } id labelMax =
            ContainerRecord.ofContainer { id := "a", image := "b" } id labelMax := by
  have hd : decode [10, 1, 97, 26, 1, 98] = some { id := "a", image := "b" } := by decide +kernel
  have hopens : SpellsTag 15 3 [123] := ⟨by decide, by decide, .last (b := 123) (by decide)⟩
  have hcloses : SpellsTag 15 4 [124] := ⟨by decide, by decide, .last (b := 124) (by decide)⟩
  have htag : SpellsTag 1 0 [8] := ⟨by decide, by decide, .last (b := 8) (by decide)⟩
  have hinner : ∀ p ∈ [((1 : Nat), ([8, 5] : Bytes))], SpellsField 99 p.1 p.2 := by
    rintro p (_ | ⟨_, hp⟩)
    · exact .value htag (.number (.last (b := 5) (by decide)))
    · cases hp
  have hgroup : SpellsField maxDepth 15 [123, 8, 5, 124] := .group hopens hinner hcloses
  have hb : (fields maxDepth [10, 1, 97]).isSome := by decide +kernel
  have hg : Grown [10, 1, 97, 26, 1, 98] ([10, 1, 97] ++ ([123, 8, 5, 124] ++ [26, 1, 98])) :=
    .insert .same hb hgroup (by decide) (by decide)
  exact ⟨hd, hg, decode_grown hd hg⟩

end Attribution.Wire.Container
