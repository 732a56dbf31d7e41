import Attribution.Wire.Field

namespace Attribution.Wire

/-- The reader takes just these bytes for this result, whatever follows them. -/
def Takes {α : Type} (read : Bytes → Option (α × Bytes)) (taken : Bytes) (a : α) : Prop :=
  ∀ rest, read (taken ++ rest) = some (a, rest)

/-- The reader does not look at what it leaves. -/
def Local {α : Type} (read : Bytes → Option (α × Bytes)) : Prop :=
  ∀ ⦃bs a rest⦄, read bs = some (a, rest) → ∃ taken, bs = taken ++ rest ∧ Takes read taken a

section

variable {α β : Type}

theorem Takes.bind {first : Bytes → Option (α × Bytes)} {next : α → Bytes → Option (β × Bytes)}
    {taken taken' : Bytes} {a : α} {b : β} (h : Takes first taken a) (h' : Takes (next a) taken' b) :
    Takes (fun bs => (first bs).bind fun p => next p.1 p.2) (taken ++ taken') b := by
  intro rest
  dsimp only
  rw [List.append_assoc, h, Option.bind_some]
  exact h' rest

theorem Local.bind {first : Bytes → Option (α × Bytes)} {next : α → Bytes → Option (β × Bytes)}
    (h : Local first) (h' : ∀ a, Local (next a)) :
    Local fun bs => (first bs).bind fun p => next p.1 p.2 := by
  intro bs b rest hr
  obtain ⟨⟨a, middle⟩, hf, hn⟩ := Option.bind_eq_some_iff.mp hr
  obtain ⟨taken, rfl, ht⟩ := h hf
  obtain ⟨taken', rfl, ht'⟩ := h' a hn
  exact ⟨taken ++ taken', (List.append_assoc ..).symm, ht.bind ht'⟩

theorem local_pure (a : α) : Local fun bs => some (a, bs) := by
  intro bs b rest h
  cases h
  exact ⟨[], rfl, fun rest => rfl⟩

theorem local_none : Local fun _ : Bytes => (none : Option (α × Bytes)) := by
  intro bs a rest h
  cases h

theorem local_ite (p : Prop) [Decidable p] (a : α) :
    Local fun bs => if p then some (a, bs) else none := by
  split
  next => exact local_pure a
  next => exact local_none

theorem Local.map {read : Bytes → Option (α × Bytes)} (h : Local read) (f : α → β) :
    Local fun bs => (read bs).map fun p => (f p.1, p.2) := by
  have hb := h.bind fun a => local_pure (f a)
  simpa only [Option.map_eq_bind, Function.comp_def] using hb

end

theorem local_readVarint (limit : Nat) : Local (readVarint limit) := by
  induction limit with
  | zero =>
    intro bs n rest h
    simp [readVarint] at h
  | succ limit ih =>
    intro bs n rest h
    cases bs with
    | nil => simp [readVarint] at h
    | cons b bs =>
      by_cases hb : b < 128
      · simp only [readVarint, if_pos hb, Option.some.injEq, Prod.mk.injEq] at h
        obtain ⟨rfl, rfl⟩ := h
        exact ⟨[b], rfl, fun rest => by simp [readVarint, hb]⟩
      · rw [readVarint, if_neg hb] at h
        obtain ⟨⟨m, tail⟩, hm, he⟩ := Option.map_eq_some_iff.mp h
        obtain ⟨rfl, rfl⟩ := Prod.mk.inj he
        obtain ⟨taken, rfl, ht⟩ := ih hm
        refine ⟨b :: taken, rfl, fun rest => ?_⟩
        rw [List.cons_append, readVarint, if_neg hb, ht]
        rfl

theorem takes_splitExactly? (content : Bytes) :
    Takes (splitExactly? content.length) content content := by
  intro rest
  simp [splitExactly?]

theorem local_splitExactly? (n : Nat) : Local (splitExactly? n) := by
  intro bs content rest h
  unfold splitExactly? at h
  split at h
  next hn =>
    obtain ⟨rfl, rfl⟩ := Prod.mk.inj (Option.some.inj h)
    have hl : (bs.take n).length = n := List.length_take_of_le hn
    refine ⟨bs.take n, (List.take_append_drop n bs).symm, fun rest => ?_⟩
    have ht := takes_splitExactly? (bs.take n) rest
    rwa [hl] at ht
  next => simp at h

theorem local_readTag : Local readTag :=
  (local_readVarint tagBytes).bind fun tag => local_ite (tag < Nat.pow 2 32) (tag / 8, tag % 8)

theorem local_readSized : Local readSized := by
  have hcontent : ∀ size : Nat,
      Local fun rest => if size < Nat.pow 2 31 then splitExactly? size rest else none := by
    intro size
    split
    next => exact local_splitExactly? size
    next => exact local_none
  exact (local_readVarint sizeBytes).bind hcontent

theorem local_readPayload (kind : Nat) : Local (readPayload kind) := by
  unfold readPayload
  split
  next => exact (local_readVarint valueBytes).map fun _ => Piece.value .number
  next => exact (local_splitExactly? 8).map fun _ => Piece.value .fixed
  next => exact local_readSized.map fun content => Piece.value (.bytes content)
  next => exact local_pure Piece.opens
  next => exact local_pure Piece.closes
  next => exact (local_splitExactly? 4).map fun _ => Piece.value .fixed
  next => exact local_none

theorem local_readPiece : Local readPiece :=
  local_readTag.bind fun tag => (local_readPayload tag.2).bind fun piece => local_pure (tag.1, piece)

/-- These bytes close all the open groups, whatever follows. -/
def Closes (depth : Nat) (numbers : List Nat) (taken : Bytes) : Prop :=
  ∀ rest, skipGroups depth numbers (taken ++ rest) = some rest

theorem closes_nil (depth : Nat) : Closes depth [] [] := by
  intro rest
  rw [List.nil_append, skipGroups]

theorem skipGroups_of_piece {bs rest : Bytes} {n : Nat} {piece : Piece} (depth number : Nat)
    (outer : List Nat) : readPiece bs = some ((n, piece), rest) →
    skipGroups depth (number :: outer) bs =
      match piece with
      | .value _ => skipGroups depth (number :: outer) rest
      | .opens =>
        if outer.length + 1 < depth then skipGroups depth (n :: number :: outer) rest else none
      | .closes => if n = number then skipGroups depth outer rest else none := by
  intro h
  rw [skipGroups]
  split
  next hn => simp [h] at hn
  next m piece' rest' hp =>
    cases h.symm.trans hp
    cases piece <;> rfl

theorem closes_of_skipGroups {depth : Nat} {numbers : List Nat} {bs rest : Bytes}
    (h : skipGroups depth numbers bs = some rest) :
    ∃ taken, bs = taken ++ rest ∧ Closes depth numbers taken := by
  induction hn : bs.length using Nat.strongRecOn generalizing numbers bs with
  | ind n ih =>
    cases numbers with
    | nil =>
      rw [skipGroups] at h
      exact ⟨[], Option.some.inj h, closes_nil depth⟩
    | cons number outer =>
      obtain ⟨⟨⟨m, piece⟩, tail⟩, hp⟩ : ∃ p, readPiece bs = some p := by
        rw [skipGroups] at h
        split at h
        next => simp at h
        next hp => exact ⟨_, hp⟩
      have hlt : tail.length < bs.length := readPiece_length hp
      obtain ⟨first, hbs, hf⟩ := local_readPiece hp
      -- Behind a piece the same groups are open in front of any bytes.
      have hbehind : ∀ {after}, skipGroups depth after tail = some rest →
          (∀ rest, skipGroups depth (number :: outer) (first ++ rest) =
            skipGroups depth after rest) →
          ∃ taken, bs = taken ++ rest ∧ Closes depth (number :: outer) taken := by
        intro after hs he
        obtain ⟨taken, rfl, hc⟩ := ih tail.length (by omega) hs rfl
        refine ⟨first ++ taken, by rw [hbs, List.append_assoc], fun rest => ?_⟩
        rw [List.append_assoc, he, hc]
      rw [skipGroups_of_piece depth number outer hp] at h
      have he := fun rest => skipGroups_of_piece depth number outer (hf rest)
      cases piece with
      | value payload => exact hbehind h he
      | opens =>
        dsimp only at h he
        split at h
        next hd =>
          simp only [if_pos hd] at he
          exact hbehind h he
        next => simp at h
      | closes =>
        dsimp only at h he
        split at h
        next hm =>
          simp only [if_pos hm] at he
          exact hbehind h he
        next => simp at h

/-- The field is read from its own bytes, wherever they stand. -/
def Field.Reads (depth : Nat) (f : Field) : Prop := Takes (readField depth) f.raw f

theorem take_sub_length (taken rest : Bytes) :
    (taken ++ rest).take ((taken ++ rest).length - rest.length) = taken := by
  simp

theorem reads_of_value {first : Bytes} {number : Nat} {payload : Payload}
    (h : Takes readPiece first (number, .value payload)) (hn : number ≠ 0) (depth : Nat) :
    Field.Reads depth ⟨number, payload, first⟩ := by
  intro rest
  rw [readField, h]
  simp only [Option.bind_eq_bind, Option.bind_some, if_neg hn, take_sub_length]
  rfl

theorem reads_of_group {first inner : Bytes} {number depth : Nat}
    (h : Takes readPiece first (number, .opens)) (hn : number ≠ 0)
    (hc : Closes (depth + 1) [number] inner) :
    Field.Reads (depth + 1) ⟨number, .group, first ++ inner⟩ := by
  intro rest
  have hraw := take_sub_length (first ++ inner) rest
  rw [List.append_assoc] at hraw
  simp only [List.append_assoc]
  rw [readField, h]
  simp only [Option.bind_eq_bind, Option.bind_some, if_neg hn, hc rest, hraw]
  rfl

theorem readField_eq_some {depth : Nat} {bs rest : Bytes} {f : Field}
    (h : readField depth bs = some (f, rest)) : bs = f.raw ++ rest ∧ f.Reads depth := by
  -- The bytes of some field that is read there are enough, since reading has one result.
  suffices hs : ∃ g : Field, bs = g.raw ++ rest ∧ g.Reads depth by
    obtain ⟨g, rfl, hg⟩ := hs
    obtain rfl : g = f := congrArg Prod.fst (Option.some.inj ((hg rest).symm.trans h))
    exact ⟨rfl, hg⟩
  obtain ⟨⟨⟨number, piece⟩, middle⟩, hp, h⟩ := Option.bind_eq_some_iff.mp h
  obtain ⟨first, rfl, hf⟩ := local_readPiece hp
  dsimp only at h
  split at h
  next => simp at h
  next hn =>
    cases piece with
    | value payload =>
      cases h
      exact ⟨⟨number, payload, first⟩, rfl, reads_of_value hf hn depth⟩
    | opens =>
      cases depth with
      | zero => simp at h
      | succ depth =>
        obtain ⟨behind, hs, h⟩ := Option.bind_eq_some_iff.mp h
        cases h
        obtain ⟨inner, rfl, hc⟩ := closes_of_skipGroups hs
        exact ⟨⟨number, .group, first ++ inner⟩, (List.append_assoc ..).symm, reads_of_group hf hn hc⟩
    | closes => simp at h

theorem Field.Reads.raw_ne_nil {depth : Nat} {f : Field} (h : f.Reads depth) : f.raw ≠ [] := by
  intro he
  have hl := readField_length (h [])
  simp [he] at hl

theorem fields_nil (depth : Nat) : fields depth [] = some [] := by
  rw [fields, if_pos rfl]

theorem fields_raw_append {depth : Nat} {f : Field} (h : f.Reads depth) (bs : Bytes) :
    fields depth (f.raw ++ bs) = (fields depth bs).map (f :: ·) := by
  have hne : f.raw ++ bs ≠ [] := by
    intro he
    exact h.raw_ne_nil (List.append_eq_nil_iff.mp he).1
  rw [fields, if_neg hne]
  split
  next hf => simp [h bs] at hf
  next g tail hf =>
    obtain ⟨rfl, rfl⟩ := Prod.mk.inj (Option.some.inj ((h bs).symm.trans hf))
    rfl

theorem fields_flatMap_raw {depth : Nat} {fs : List Field} (h : ∀ f ∈ fs, f.Reads depth)
    (bs : Bytes) : fields depth (fs.flatMap Field.raw ++ bs) = (fields depth bs).map (fs ++ ·) := by
  induction fs with
  | nil => simp
  | cons f fs ih =>
    have hfs := ih fun g hg => h g (List.mem_cons_of_mem f hg)
    rw [List.flatMap_cons, List.append_assoc, fields_raw_append (h f List.mem_cons_self), hfs,
      Option.map_map]
    rfl

/-- The fields of a message are the one way to cut its bytes into fields. -/
theorem fields_eq_some_iff {depth : Nat} {bs : Bytes} {fs : List Field} :
    fields depth bs = some fs ↔ bs = fs.flatMap Field.raw ∧ ∀ f ∈ fs, f.Reads depth := by
  constructor
  · intro h
    induction hn : bs.length using Nat.strongRecOn generalizing bs fs with
    | ind n ih =>
      rw [fields] at h
      split at h
      next hnil =>
        cases h
        exact ⟨hnil, by simp⟩
      next =>
        split at h
        next => simp at h
        next f rest hf =>
          obtain ⟨tail, ht, rfl⟩ := Option.map_eq_some_iff.mp h
          have hlt : rest.length < bs.length := readField_length hf
          obtain ⟨hbs, hr⟩ := readField_eq_some hf
          obtain ⟨hrest, hall⟩ := ih rest.length (by omega) ht rfl
          refine ⟨by rw [hbs, hrest, List.flatMap_cons], ?_⟩
          rintro g (_ | ⟨_, hg⟩)
          · exact hr
          · exact hall g hg
  · rintro ⟨rfl, h⟩
    have hf := fields_flatMap_raw h []
    rwa [List.append_nil, fields_nil, Option.map_some, List.append_nil] at hf

end Attribution.Wire
