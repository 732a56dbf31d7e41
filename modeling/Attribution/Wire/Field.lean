import Attribution.Wire.Varint

namespace Attribution.Wire

inductive Payload where
  | number
  | bytes (content : Bytes)
  /-- Eight or four bytes of fixed width. -/
  | fixed
  | group
  deriving DecidableEq, Repr

structure Field where
  number : Nat
  payload : Payload
  raw : Bytes
  deriving DecidableEq, Repr

/-- What a tag announces: a payload of its own, or one end of a group. -/
inductive Piece where
  | value (payload : Payload)
  | opens
  | closes

def tagBytes : Nat := 5

def sizeBytes : Nat := 5

def valueBytes : Nat := 10

/-- The number of a field and its kind. -/
def readTag (bs : Bytes) : Option ((Nat × Nat) × Bytes) := do
  let (tag, rest) ← readVarint tagBytes bs
  if tag < Nat.pow 2 32 then return ((tag / 8, tag % 8), rest) else none

/-- The first `n` bytes and the others, if there are so many. -/
def splitExactly? (n : Nat) (bs : Bytes) : Option (Bytes × Bytes) :=
  if n ≤ bs.length then some (bs.take n, bs.drop n) else none

/-- The content of a payload that begins with its size. -/
def readSized (bs : Bytes) : Option (Bytes × Bytes) := do
  let (size, rest) ← readVarint sizeBytes bs
  if size < Nat.pow 2 31 then splitExactly? size rest else none

def readPayload (kind : Nat) (bs : Bytes) : Option (Piece × Bytes) :=
  match kind with
  | 0 => (readVarint valueBytes bs).map fun p => (.value .number, p.2)
  | 1 => (splitExactly? 8 bs).map fun p => (.value .fixed, p.2)
  | 2 => (readSized bs).map fun p => (.value (.bytes p.1), p.2)
  | 3 => some (.opens, bs)
  | 4 => some (.closes, bs)
  | 5 => (splitExactly? 4 bs).map fun p => (.value .fixed, p.2)
  | _ => none

def readPiece (bs : Bytes) : Option ((Nat × Piece) × Bytes) := do
  let ((number, kind), rest) ← readTag bs
  let (piece, rest) ← readPayload kind rest
  return ((number, piece), rest)

theorem splitExactly?_length {n : Nat} {bs : Bytes} {p : Bytes × Bytes}
    (h : splitExactly? n bs = some p) : p.2.length ≤ bs.length := by
  unfold splitExactly? at h
  split at h
  · cases h; simp
  · simp at h

theorem readTag_length {bs : Bytes} {p : (Nat × Nat) × Bytes} (h : readTag bs = some p) :
    p.2.length < bs.length := by
  obtain ⟨⟨tag, rest⟩, hr, h⟩ := Option.bind_eq_some_iff.mp h
  have hl := readVarint_length hr
  simp only at h
  split at h
  · cases h; exact hl
  · simp at h

theorem readPayload_length {kind : Nat} {bs : Bytes} {p : Piece × Bytes}
    (h : readPayload kind bs = some p) : p.2.length ≤ bs.length := by
  unfold readPayload at h
  split at h
  · obtain ⟨q, hq, rfl⟩ := Option.map_eq_some_iff.mp h
    exact Nat.le_of_lt (readVarint_length hq)
  · obtain ⟨q, hq, rfl⟩ := Option.map_eq_some_iff.mp h
    exact splitExactly?_length hq
  · obtain ⟨q, hq, rfl⟩ := Option.map_eq_some_iff.mp h
    obtain ⟨⟨size, rest⟩, hr, hs⟩ := Option.bind_eq_some_iff.mp hq
    have hl := readVarint_length hr
    simp only at hs
    split at hs
    · exact Nat.le_trans (splitExactly?_length hs) (Nat.le_of_lt hl)
    · simp at hs
  · cases h; exact Nat.le_refl _
  · cases h; exact Nat.le_refl _
  · obtain ⟨q, hq, rfl⟩ := Option.map_eq_some_iff.mp h
    exact splitExactly?_length hq
  · simp at h

theorem readPiece_length {bs : Bytes} {p : (Nat × Piece) × Bytes} (h : readPiece bs = some p) :
    p.2.length < bs.length := by
  obtain ⟨⟨⟨number, kind⟩, rest⟩, ht, h⟩ := Option.bind_eq_some_iff.mp h
  obtain ⟨⟨piece, rest'⟩, hp, h⟩ := Option.bind_eq_some_iff.mp h
  cases h
  exact Nat.lt_of_le_of_lt (readPayload_length hp) (readTag_length ht)

/-- What follows the end of all open groups, whose numbers are given, the innermost first. No more
than `depth` may be open. -/
def skipGroups (depth : Nat) (numbers : List Nat) (bs : Bytes) : Option Bytes :=
  match numbers with
  | [] => some bs
  | number :: outer =>
    match h : readPiece bs with
    | none => none
    | some ((n, piece), rest) =>
      have _ : rest.length < bs.length := readPiece_length h
      match piece with
      | .value _ => skipGroups depth (number :: outer) rest
      | .opens =>
        if outer.length + 1 < depth then skipGroups depth (n :: number :: outer) rest else none
      | .closes => if n = number then skipGroups depth outer rest else none
  termination_by bs.length

theorem skipGroups_length {depth : Nat} {numbers : List Nat} {bs rest : Bytes}
    (h : skipGroups depth numbers bs = some rest) : rest.length ≤ bs.length := by
  fun_induction skipGroups depth numbers bs <;> grind

/-- The first field of a message in which groups may nest `depth` deep. The number zero is no field's,
though inside a group, where nothing is looked at, it may stand. -/
def readField (depth : Nat) (bs : Bytes) : Option (Field × Bytes) := do
  let ((number, piece), rest) ← readPiece bs
  if number = 0 then none
  else
    match piece with
    | .value payload => return (⟨number, payload, bs.take (bs.length - rest.length)⟩, rest)
    | .opens =>
      match depth with
      | 0 => none
      | _ =>
        let rest ← skipGroups depth [number] rest
        return (⟨number, .group, bs.take (bs.length - rest.length)⟩, rest)
    | .closes => none

theorem readField_length {depth : Nat} {bs : Bytes} {p : Field × Bytes}
    (h : readField depth bs = some p) : p.2.length < bs.length := by
  obtain ⟨⟨⟨number, piece⟩, rest⟩, hp, h⟩ := Option.bind_eq_some_iff.mp h
  have hl := readPiece_length hp
  simp only at hl h
  split at h
  · simp at h
  cases piece with
  | value payload => cases h; exact hl
  | opens =>
    cases depth with
    | zero => simp at h
    | succ depth =>
      obtain ⟨rest', hs, h⟩ := Option.bind_eq_some_iff.mp h
      cases h
      exact Nat.lt_of_le_of_lt (skipGroups_length hs) hl
  | closes => simp at h

/-- All fields of a message in order. -/
def fields (depth : Nat) (bs : Bytes) : Option (List Field) :=
  if bs = [] then some []
  else
    match h : readField depth bs with
    | none => none
    | some (field, rest) =>
      have _ : rest.length < bs.length := readField_length h
      (fields depth rest).map (field :: ·)
  termination_by bs.length

/-- A field that holds bytes, as it is written. -/
def writeBytes (number : Nat) (content : Bytes) : Bytes :=
  writeVarint (8 * number + 2) ++ writeVarint content.length ++ content

end Attribution.Wire
