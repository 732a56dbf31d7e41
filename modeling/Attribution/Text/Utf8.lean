import Attribution.Text.Quoted

namespace Attribution.Utf8

inductive Reason where
  /-- The byte begins no character. -/
  | invalidStart
  /-- A byte that should continue the character does not. -/
  | invalidContinuation
  /-- The text ends inside the character. -/
  | truncated
  deriving DecidableEq, Repr

/-- The bytes that are no character, from their first one up to the one that spoils it. -/
structure DecodeError where
  offset : Nat
  bytes : List UInt8
  reason : Reason
  deriving DecidableEq, Repr

def Reason.message : Reason → String
  | .invalidStart => "invalid start byte"
  | .invalidContinuation => "invalid continuation byte"
  | .truncated => "unexpected end of data"

def DecodeError.message (e : DecodeError) : String :=
  let place :=
    match e.bytes with
    | [b] => "byte 0x" ++ String.ofList (Text.hexText 2 b.toNat) ++ " in position " ++ toString e.offset
    | bs => "bytes in position " ++ toString e.offset ++ "-" ++ toString (e.offset + bs.length - 1)
  "'utf-8' codec can't decode " ++ place ++ ": " ++ e.reason.message

/-- What a first byte asks for: how many bytes follow it, and the range of the first of those. The
range keeps out overlong forms, surrogates and numbers past the last code point. -/
def shape? (b : UInt8) : Option (Nat × UInt8 × UInt8) :=
  if b < 0x80 then some (0, 0x80, 0xbf)
  else if b < 0xc2 then none
  else if b < 0xe0 then some (1, 0x80, 0xbf)
  else if b = 0xe0 then some (2, 0xa0, 0xbf)
  else if b = 0xed then some (2, 0x80, 0x9f)
  else if b < 0xf0 then some (2, 0x80, 0xbf)
  else if b = 0xf0 then some (3, 0x90, 0xbf)
  else if b < 0xf4 then some (3, 0x80, 0xbf)
  else if b = 0xf4 then some (3, 0x80, 0x8f)
  else none

/-- The bits that a first byte contributes when `n` bytes follow it. -/
def leadBits (n : Nat) (b : UInt8) : Nat :=
  match n with
  | 0 => b.toNat
  | 1 => b.toNat % 0x20
  | 2 => b.toNat % 0x10
  | _ => b.toNat % 0x08

/-- Reads `n` continuation bytes onto `code`, the first within the given range; `taken` are the bytes
of the character so far, last one first. -/
def continueChar (taken : List UInt8) (code : Nat) (lo hi : UInt8) :
    Nat → List UInt8 → Except (List UInt8 × Reason) (Nat × List UInt8)
  | 0, bs => .ok (code, bs)
  | _ + 1, [] => .error (taken.reverse, .truncated)
  | n + 1, b :: bs =>
    if lo ≤ b && b ≤ hi then
      continueChar (b :: taken) (code * 64 + b.toNat % 64) 0x80 0xbf n bs
    else .error (taken.reverse, .invalidContinuation)

/-- The first character and the bytes after it. -/
def nextChar (b : UInt8) (bs : List UInt8) : Except (List UInt8 × Reason) (Char × List UInt8) :=
  match shape? b with
  | none => .error ([b], .invalidStart)
  | some (n, lo, hi) =>
    (continueChar [b] (leadBits n b) lo hi n bs).map fun p => (Char.ofNat p.1, p.2)

theorem continueChar_length {taken : List UInt8} {code : Nat} {lo hi : UInt8} {n : Nat}
    {bs : List UInt8} {out : Nat × List UInt8}
    (h : continueChar taken code lo hi n bs = .ok out) : out.2.length ≤ bs.length := by
  induction n generalizing taken code lo hi bs with
  | zero => simp [continueChar] at h; subst h; simp
  | succ n ih =>
    cases bs with
    | nil => simp [continueChar] at h
    | cons b bs =>
      simp only [continueChar] at h
      split at h
      · have := ih h; simp; omega
      · simp at h

theorem nextChar_length {b : UInt8} {bs : List UInt8} {out : Char × List UInt8}
    (h : nextChar b bs = .ok out) : out.2.length ≤ bs.length := by
  unfold nextChar at h
  split at h
  · simp at h
  next n lo hi _ =>
    cases hc : continueChar [b] (leadBits n b) lo hi n bs with
    | error e => rw [hc] at h; simp [Except.map] at h
    | ok p =>
      rw [hc] at h
      simp only [Except.map, Except.ok.injEq] at h
      subst h
      exact continueChar_length hc

/-- The characters of bytes that begin at `offset`. -/
def decodeFrom (offset : Nat) : List UInt8 → Except DecodeError (List Char)
  | [] => .ok []
  | b :: bs =>
    match h : nextChar b bs with
    | .error (bytes, reason) => .error ⟨offset, bytes, reason⟩
    | .ok (c, rest) =>
      have _ : rest.length ≤ bs.length := nextChar_length h
      (decodeFrom (offset + c.utf8Size) rest).map (c :: ·)
  termination_by bs => bs.length

def decode (bs : List UInt8) : Except DecodeError (List Char) := decodeFrom 0 bs

def encode (cs : List Char) : List UInt8 := cs.flatMap String.utf8EncodeChar

/-- The number of bytes of a text. -/
def size (cs : List Char) : Nat := (encode cs).length

/-- The surrogates that an encoding stops at, and where the first of them stands. -/
structure EncodeError where
  offset : Nat
  points : List Nat
  deriving DecidableEq, Repr

def EncodeError.message (e : EncodeError) : String :=
  let place :=
    match e.points with
    | [p] => "character '" ++ String.ofList (Text.escapeCode p) ++ "' in position " ++ toString e.offset
    | ps => "characters in position " ++ toString e.offset ++ "-" ++ toString (e.offset + ps.length - 1)
  "'utf-8' codec can't encode " ++ place ++ ": surrogates not allowed"

def isSurrogate (point : Nat) : Bool := 0xd800 ≤ point && point < 0xe000

/-- Surrogates that stand for the bytes of the upper half in the names of files. -/
def isEscape (point : Nat) : Bool := 0xdc80 ≤ point && point < 0xdd00

/-- The surrogates from the first refused one on, as many as stand together. -/
def refusal (refused : Nat → Bool) (points : List Nat) : EncodeError :=
  let rest := points.dropWhile fun p => !refused p
  ⟨points.length - rest.length, rest.takeWhile isSurrogate⟩

/-- The bytes of a code point in the name of a file. -/
def pointBytes (point : Nat) : List UInt8 :=
  if isSurrogate point then [UInt8.ofNat (point - 0xdc00)]
  else String.utf8EncodeChar (Char.ofNat point)

/-- The bytes of the name of a file. Surrogates that stand for no byte are refused. -/
def nameBytes (points : List Nat) : Except EncodeError (List UInt8) :=
  let refused (p : Nat) : Bool := isSurrogate p && !isEscape p
  if points.any refused then .error (refusal refused points) else .ok (points.flatMap pointBytes)

end Attribution.Utf8
