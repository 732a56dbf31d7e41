import Attribution.Proofs.Wire.Locality
import Mathlib.Tactic.Ring

namespace Attribution.Wire

/-- `SpellsNumber limit n bs`: the bytes, no more than the limit, write the number. -/
inductive SpellsNumber : Nat → Nat → Bytes → Prop where
  | last {limit : Nat} {b : UInt8} (h : b < 128) : SpellsNumber (limit + 1) b.toNat [b]
  | more {limit n : Nat} {b : UInt8} {bs : Bytes} (h : ¬b < 128) (rest : SpellsNumber limit n bs) :
      SpellsNumber (limit + 1) (b.toNat - 128 + 128 * n) (b :: bs)

structure SpellsTag (number kind : Nat) (bs : Bytes) : Prop where
  number_lt : number < 2 ^ 29
  kind_lt : kind < 8
  bytes : SpellsNumber 5 (8 * number + kind) bs

/-- `SpellsPayload kind payload bs`: the bytes are a payload of the kind. -/
inductive SpellsPayload : Nat → Payload → Bytes → Prop where
  | number {n : Nat} {bs : Bytes} (h : SpellsNumber 10 n bs) : SpellsPayload 0 .number bs
  | eight {bs : Bytes} (h : bs.length = 8) : SpellsPayload 1 .fixed bs
  | sized {content size : Bytes} (hl : content.length < 2 ^ 31)
      (h : SpellsNumber 5 content.length size) : SpellsPayload 2 (.bytes content) (size ++ content)
  | four {bs : Bytes} (h : bs.length = 4) : SpellsPayload 5 .fixed bs

/-- `SpellsField depth number bs`: the bytes write a field of that number, in which no more groups nest
than the depth says. A group is a run of fields between two tags of its number. -/
inductive SpellsField : Nat → Nat → Bytes → Prop where
  | value {depth number kind : Nat} {payload : Payload} {first bs : Bytes}
      (tag : SpellsTag number kind first) (h : SpellsPayload kind payload bs) :
      SpellsField depth number (first ++ bs)
  | group {depth number : Nat} {first last : Bytes} {inner : List (Nat × Bytes)}
      (opens : SpellsTag number 3 first) (h : ∀ p ∈ inner, SpellsField depth p.1 p.2)
      (closes : SpellsTag number 4 last) :
      SpellsField (depth + 1) number (first ++ (inner.flatMap Prod.snd ++ last))

variable {depth number kind limit n : Nat} {payload : Payload} {bs taken : Bytes}

theorem SpellsNumber.takes (h : SpellsNumber limit n bs) : Takes (readVarint limit) bs n := by
  induction h with
  | last h =>
    intro rest
    simp [readVarint, h]
  | more h rest ih =>
    intro rest
    rw [List.cons_append, readVarint, if_neg h, ih rest]
    rfl

theorem SpellsTag.takes (h : SpellsTag number kind bs) : Takes readTag bs (number, kind) := by
  intro rest
  have hnumber := h.number_lt
  have hkind := h.kind_lt
  have ht : 8 * number + kind < Nat.pow 2 32 := by
    show 8 * number + kind < 2 ^ 32
    omega
  have hq : (8 * number + kind) / 8 = number := by omega
  have hr : (8 * number + kind) % 8 = kind := by omega
  have hv : readVarint tagBytes (bs ++ rest) = some (8 * number + kind, rest) := h.bytes.takes rest
  rw [readTag, hv]
  simp only [Option.bind_eq_bind, Option.bind_some, if_pos ht, hq, hr]
  rfl

theorem SpellsPayload.takes (h : SpellsPayload kind payload bs) :
    Takes (readPayload kind) bs (.value payload) := by
  intro rest
  cases h with
  | number h =>
    have hv : readVarint valueBytes (bs ++ rest) = some (_, rest) := h.takes rest
    simp only [readPayload, hv, Option.map_some]
  | eight h =>
    have hs := takes_splitExactly? bs rest
    rw [h] at hs
    simp only [readPayload, hs, Option.map_some]
  | @sized content size hl h =>
    have hv : readVarint sizeBytes (size ++ (content ++ rest)) =
        some (content.length, content ++ rest) := h.takes (content ++ rest)
    have hl' : content.length < Nat.pow 2 31 := hl
    have hs : readSized (size ++ (content ++ rest)) = some (content, rest) := by
      rw [readSized, hv]
      simp only [Option.bind_eq_bind, Option.bind_some, if_pos hl']
      exact takes_splitExactly? content rest
    rw [List.append_assoc, readPayload, hs]
    rfl
  | four h =>
    have hs := takes_splitExactly? bs rest
    rw [h] at hs
    simp only [readPayload, hs, Option.map_some]

theorem SpellsTag.takes_piece {piece : Piece} (h : SpellsTag number kind bs)
    (hp : Takes (readPayload kind) taken piece) :
    Takes readPiece (bs ++ taken) (number, piece) := by
  intro rest
  rw [readPiece, List.append_assoc, h.takes]
  simp only [Option.bind_eq_bind, Option.bind_some, hp rest]
  rfl

theorem SpellsTag.takes_opens (h : SpellsTag number 3 bs) : Takes readPiece bs (number, .opens) := by
  have hopens : Takes (readPayload 3) [] .opens := fun rest => rfl
  have hp := h.takes_piece hopens
  rwa [List.append_nil] at hp

theorem SpellsTag.takes_closes (h : SpellsTag number 4 bs) :
    Takes readPiece bs (number, .closes) := by
  have hcloses : Takes (readPayload 4) [] .closes := fun rest => rfl
  have hp := h.takes_piece hcloses
  rwa [List.append_nil] at hp

/-- The bytes are passed over inside open groups, which stay open. -/
def Skips (depth : Nat) (numbers : List Nat) (bs : Bytes) : Prop :=
  ∀ rest, skipGroups depth numbers (bs ++ rest) = skipGroups depth numbers rest

theorem skips_flatMap {numbers : List Nat} {inner : List (Nat × Bytes)}
    (h : ∀ p ∈ inner, Skips depth numbers p.2) : Skips depth numbers (inner.flatMap Prod.snd) := by
  induction inner with
  | nil => exact fun rest => rfl
  | cons p inner ih =>
    intro rest
    have hp := h p List.mem_cons_self
    have hinner := ih fun q hq => h q (List.mem_cons_of_mem p hq)
    rw [List.flatMap_cons, List.append_assoc, hp, hinner]

theorem closes_of_skips {outer : List Nat} {last : Bytes}
    (h : Skips depth (number :: outer) bs) (hl : SpellsTag number 4 last) (rest : Bytes) :
    skipGroups depth (number :: outer) (bs ++ last ++ rest) = skipGroups depth outer rest := by
  rw [List.append_assoc, h, skipGroups_of_piece depth number outer (hl.takes_closes rest)]
  exact if_pos rfl

theorem SpellsField.skips {current nested : Nat} {outer : List Nat}
    (h : SpellsField nested number bs) (hd : outer.length + 1 + nested ≤ depth) :
    Skips depth (current :: outer) bs := by
  -- What stands inside a group is passed over with that group open as well, so all lists of open
  -- groups have to be covered.
  induction h generalizing current outer with
  | value tag payload =>
    intro rest
    rw [skipGroups_of_piece depth current outer (tag.takes_piece payload.takes rest)]
  | @group nested number first last inner opens _ closes ih =>
    intro rest
    have hinner : Skips depth (number :: current :: outer) (inner.flatMap Prod.snd) := by
      refine skips_flatMap fun p hp => ih p hp ?_
      rw [List.length_cons]
      omega
    have hlt : outer.length + 1 < depth := by omega
    rw [List.append_assoc, skipGroups_of_piece depth current outer (opens.takes_opens _)]
    simp only [if_pos hlt]
    exact closes_of_skips hinner closes rest

theorem SpellsField.reads (h : SpellsField depth number bs) (hn : number ≠ 0) :
    ∃ payload, Field.Reads depth ⟨number, payload, bs⟩ := by
  cases h with
  | @value _ _ _ payload _ _ tag hp =>
    exact ⟨payload, reads_of_value (tag.takes_piece hp.takes) hn depth⟩
  | @group depth _ first last inner opens hinner closes =>
    refine ⟨.group, reads_of_group opens.takes_opens hn fun rest => ?_⟩
    have hskips : Skips (depth + 1) [number] (inner.flatMap Prod.snd) := by
      refine skips_flatMap fun p hp => (hinner p hp).skips ?_
      rw [List.length_nil]
      omega
    rw [closes_of_skips hskips closes, skipGroups]

theorem spellsNumber_small {n : Nat} (h : n < 128) (limit : Nat) :
    SpellsNumber (limit + 1) n (writeVarint n) := by
  have hb : (UInt8.ofNat n).toNat = n := by
    rw [UInt8.toNat_ofNat']
    omega
  have hs : UInt8.ofNat n < 128 := by
    rw [UInt8.lt_iff_toNat_lt, hb]
    exact h
  have hlast : SpellsNumber (limit + 1) (UInt8.ofNat n).toNat [UInt8.ofNat n] := .last hs
  rw [hb] at hlast
  rw [writeVarint, if_pos h]
  exact hlast

theorem spellsNumber_writeVarint {n : Nat} (h : n < 128 ^ (limit + 1)) :
    SpellsNumber (limit + 1) n (writeVarint n) := by
  induction limit generalizing n with
  | zero =>
    have hn : n < 128 := by simpa using h
    exact spellsNumber_small hn 0
  | succ limit ih =>
    by_cases hn : n < 128
    · exact spellsNumber_small hn (limit + 1)
    · have hb : (UInt8.ofNat (n % 128 + 128)).toNat = n % 128 + 128 := by
        rw [UInt8.toNat_ofNat']
        omega
      have hs : ¬UInt8.ofNat (n % 128 + 128) < 128 := by
        rw [UInt8.lt_iff_toNat_lt, hb]
        simp
      have hq : n / 128 < 128 ^ (limit + 1) := by
        rw [Nat.div_lt_iff_lt_mul (by decide)]
        rwa [pow_succ] at h
      have hd : n % 128 + 128 - 128 + 128 * (n / 128) = n := by omega
      have hmore := SpellsNumber.more hs (ih hq)
      rw [hb, hd] at hmore
      rw [writeVarint, if_neg hn]
      exact hmore

/-- How a field of bytes is read. -/
def bytesField (number : Nat) (content : Bytes) : Field :=
  ⟨number, .bytes content, writeBytes number content⟩

theorem reads_bytesField {content : Bytes} (hp : number ≠ 0) (hn : number < 2 ^ 29)
    (h : content.length < 2 ^ 31) (depth : Nat) : (bytesField number content).Reads depth := by
  have hlimit : (2 : Nat) ^ 32 < 128 ^ (4 + 1) := by decide
  have htag : SpellsTag number 2 (writeVarint (8 * number + 2)) :=
    ⟨hn, by decide, spellsNumber_writeVarint (by omega)⟩
  have hpayload : SpellsPayload 2 (.bytes content) (writeVarint content.length ++ content) :=
    .sized h (spellsNumber_writeVarint (by omega))
  have hr := reads_of_value (htag.takes_piece hpayload.takes) hp depth
  rwa [← List.append_assoc] at hr

end Attribution.Wire
