import Attribution.Proofs.Wire.Request
import Mathlib.Data.List.Induction

namespace Attribution.Wire

section

variable {α : Type} {set : α → Field → Option α} {depth : Nat} {a b c : α} {bs : Bytes}

theorem readOnto_eq_some :
    readOnto set depth a bs = some b ↔
      ∃ fs, fields depth bs = some fs ∧ fs.foldlM set a = some b :=
  Option.bind_eq_some_iff

theorem readOnto_nil (set : α → Field → Option α) (depth : Nat) (a : α) :
    readOnto set depth a [] = some a :=
  readOnto_eq_some.mpr ⟨[], fields_nil depth, rfl⟩

theorem readOnto_append {later : Bytes} (h : readOnto set depth a bs = some b)
    (h' : readOnto set depth b later = some c) : readOnto set depth a (bs ++ later) = some c := by
  obtain ⟨fs, hf, hb⟩ := readOnto_eq_some.mp h
  obtain ⟨gs, hg, hc⟩ := readOnto_eq_some.mp h'
  obtain ⟨rfl, hr⟩ := fields_eq_some_iff.mp hf
  refine readOnto_eq_some.mpr ⟨fs ++ gs, ?_, ?_⟩
  · rw [fields_flatMap_raw hr, hg, Option.map_some]
  · rw [List.foldlM_append, hb]
    exact hc

theorem readOnto_split {later : Bytes} (h : readOnto set depth a (bs ++ later) = some c)
    (hw : (fields depth bs).isSome) :
    ∃ b, readOnto set depth a bs = some b ∧ readOnto set depth b later = some c := by
  obtain ⟨fs, hf⟩ := Option.isSome_iff_exists.mp hw
  obtain ⟨all, hall, hc⟩ := readOnto_eq_some.mp h
  obtain ⟨rfl, hr⟩ := fields_eq_some_iff.mp hf
  rw [fields_flatMap_raw hr] at hall
  obtain ⟨gs, hg, rfl⟩ := Option.map_eq_some_iff.mp hall
  rw [List.foldlM_append] at hc
  obtain ⟨b, hb, hc⟩ := Option.bind_eq_some_iff.mp hc
  exact ⟨b, readOnto_eq_some.mpr ⟨fs, hf, hb⟩, readOnto_eq_some.mpr ⟨gs, hg, hc⟩⟩

theorem readOnto_raw {f : Field} (hr : f.Reads depth) (h : set a f = some b) :
    readOnto set depth a f.raw = some b := by
  refine readOnto_eq_some.mpr ⟨[f], fields_eq_some_iff.mpr ⟨by simp, by simpa using hr⟩, ?_⟩
  rw [List.foldlM_cons, h]
  rfl

theorem readOnto_induction {P : α → Prop} (h : readOnto set depth a bs = some b) (start : P a)
    (step : ∀ a f b, f.Reads depth → set a f = some b → P a → P b) : P b := by
  obtain ⟨fs, hf, hb⟩ := readOnto_eq_some.mp h
  have hr := (fields_eq_some_iff.mp hf).2
  clear h hf
  induction fs generalizing a with
  | nil =>
    obtain rfl := Option.some.inj hb
    exact start
  | cons f fs ih =>
    rw [List.foldlM_cons] at hb
    obtain ⟨middle, hm, hb⟩ := Option.bind_eq_some_iff.mp hb
    exact ih (step a f middle (hr f List.mem_cons_self) hm start) hb
      fun g hg => hr g (List.mem_cons_of_mem f hg)

end

/-- The bytes of a message, none of which reaches two gigabytes. -/
def maxSize : Nat := Nat.pow 2 31

/-- Bytes that make one message of another, unless they are longer than any message. -/
def Brings {α : Type} (set : α → Field → Option α) (depth : Nat) (a : α) (bs : Bytes) (b : α) : Prop :=
  bs.length < maxSize → readOnto set depth a bs = some b

namespace Brings

variable {α : Type} {set : α → Field → Option α} {depth : Nat} {a b c : α} {bs later : Bytes}

theorem nil (set : α → Field → Option α) (depth : Nat) (a : α) : Brings set depth a [] a :=
  fun _ => readOnto_nil set depth a

theorem append (h : Brings set depth a bs b) (h' : Brings set depth b later c) :
    Brings set depth a (bs ++ later) c := by
  intro hl
  rw [List.length_append] at hl
  exact readOnto_append (h (by omega)) (h' (by omega))

theorem bytes {number : Nat} {content : Bytes} (hn : number ≠ 0 ∧ number < 2 ^ 29)
    (h : content.length < maxSize → set a (bytesField number content) = some b) :
    Brings set depth a (writeBytes number content) b := by
  intro hl
  have hc : content.length < maxSize := by
    rw [writeBytes, List.length_append] at hl
    omega
  exact readOnto_raw (reads_bytesField hn.1 hn.2 hc depth) (h hc)

theorem text {number : Nat} (put : String → α) (s : String) (hn : number ≠ 0 ∧ number < 2 ^ 29)
    (h : set (put "") (bytesField number (textBytes s)) = (text? (textBytes s)).map put) :
    Brings set depth (put "") (writeText number s) (put s) := by
  unfold writeText
  split
  next hs =>
    rw [hs]
    exact nil set depth _
  next =>
    rw [text?_textBytes, Option.map_some] at h
    exact bytes hn fun _ => h

theorem inner {β : Type} {encode : β → Bytes} {number : Nat} (put : Option β → α) (o : Option β)
    (hn : number ≠ 0 ∧ number < 2 ^ 29)
    (h : ∀ b, o = some b → (encode b).length < maxSize →
      set (put none) (bytesField number (encode b)) = some (put (some b))) :
    Brings set depth (put none) (writeInner encode number o) (put o) := by
  cases o with
  | none => exact nil set depth _
  | some b => exact bytes hn (h b rfl)

theorem items {β : Type} {write : β → Bytes} (put : List β → α) (xs : List β)
    (h : ∀ done x, x ∈ xs → Brings set depth (put done) (write x) (put (done ++ [x]))) :
    Brings set depth (put []) (xs.flatMap write) (put xs) := by
  suffices hs : ∀ done, Brings set depth (put done) (xs.flatMap write) (put (done ++ xs)) by
    simpa using hs []
  induction xs with
  | nil =>
    intro done
    rw [List.append_nil]
    exact nil set depth _
  | cons x xs ih =>
    intro done
    have hx := h done x List.mem_cons_self
    have hxs := ih (fun done y hy => h done y (List.mem_cons_of_mem x hy)) (done ++ [x])
    rw [List.append_assoc, List.singleton_append] at hxs
    rw [List.flatMap_cons]
    exact hx.append hxs

end Brings

/-- Messages that keep what they do not know at their end. -/
class Keeping (α : Type) where
  unknown : α → Bytes
  keep : α → Bytes → α
  unknown_keep : ∀ a bs, unknown (keep a bs) = unknown a ++ bs
  keep_nil : ∀ a, keep a [] = a
  keep_append : ∀ a bs later, keep (keep a bs) later = keep a (bs ++ later)

open Keeping (keep unknown)

/-- Bytes that a message only keeps. -/
def Kept {α : Type} [Keeping α] (set : α → Field → Option α) (depth : Nat) (bs : Bytes) : Prop :=
  ∀ a, Brings set depth a bs (keep a bs)

namespace Kept

variable {α : Type} [Keeping α] {set : α → Field → Option α} {depth : Nat} {bs later : Bytes}

theorem nil (set : α → Field → Option α) (depth : Nat) : Kept set depth [] := by
  intro a
  rw [Keeping.keep_nil]
  exact Brings.nil set depth a

theorem append (h : Kept set depth bs) (h' : Kept set depth later) :
    Kept set depth (bs ++ later) := by
  intro a
  rw [← Keeping.keep_append]
  exact (h a).append (h' _)

theorem raw {f : Field} (hr : f.Reads depth) (h : ∀ a, set a f = some (keep a f.raw)) :
    Kept set depth f.raw :=
  fun a _ => readOnto_raw hr (h a)

end Kept

/-- The bytes that the field holds, if it is a field of bytes with this number. -/
def Field.content? (number : Nat) (f : Field) : Option Bytes :=
  match f.payload with
  | .bytes content => if f.number = number then some content else none
  | _ => none

/-- The bytes of all fields of one number, in order. -/
def contents (number : Nat) (fs : List Field) : List Bytes := fs.filterMap (Field.content? number)

theorem Field.content?_eq_some {number : Nat} {f : Field} {content : Bytes} :
    f.content? number = some content ↔ f.number = number ∧ f.payload = .bytes content := by
  unfold content?
  split
  next inner hp =>
    rw [hp]
    split
    next hn => simp [hn]
    next hn => simp [hn]
  next hp => simpa using fun _ hc => hp content hc

/-- A message inside another one that comes in several fields is read as if their bytes came in one. -/
theorem readOnto_contents {α β : Type} {set : α → Field → Option α} {setInner : β → Field → Option β}
    {depth depth' number : Nat} {a b : α} {bs : Bytes} {fs : List Field} (get : α → β)
    (h : readOnto set depth a bs = some b) (hf : fields depth bs = some fs)
    (other : ∀ a f b, set a f = some b → f.content? number = none → get b = get a)
    (part : ∀ a f b content, set a f = some b → f.content? number = some content →
      readOnto setInner depth' (get a) content = some (get b)) :
    readOnto setInner depth' (get a) (contents number fs).flatten = some (get b) := by
  obtain ⟨gs, hg, hb⟩ := readOnto_eq_some.mp h
  obtain rfl : gs = fs := Option.some.inj (hg.symm.trans hf)
  clear h hg hf
  induction gs generalizing a with
  | nil =>
    obtain rfl := Option.some.inj hb
    exact readOnto_nil setInner depth' _
  | cons f gs ih =>
    rw [List.foldlM_cons] at hb
    obtain ⟨middle, hm, hb⟩ := Option.bind_eq_some_iff.mp hb
    have hgs := ih hb
    cases hc : f.content? number with
    | none =>
      rw [other a f middle hm hc] at hgs
      rwa [contents, List.filterMap_cons_none hc]
    | some content =>
      rw [contents, List.filterMap_cons_some hc, List.flatten_cons]
      exact readOnto_append (part a f middle content hm hc) hgs

/-- Whether a message whose fields have these numbers declares the field. All declared fields hold
bytes, so a field of another kind is not declared, whatever its number. -/
def Field.isDeclared (numbers : List Nat) (f : Field) : Bool :=
  numbers.any fun number => (f.content? number).isSome

theorem Field.isDeclared_iff {numbers : List Nat} {f : Field} :
    f.isDeclared numbers = true ↔ ∃ number ∈ numbers, ∃ content, f.content? number = some content := by
  simp only [isDeclared, List.any_eq_true, Option.isSome_iff_exists]

theorem Field.isDeclared_of_notMem {numbers : List Nat} {f : Field} (h : f.number ∉ numbers) :
    f.isDeclared numbers = false := by
  rw [Bool.eq_false_iff]
  intro hd
  obtain ⟨number, hm, content, hc⟩ := isDeclared_iff.mp hd
  obtain ⟨rfl, _⟩ := content?_eq_some.mp hc
  exact h hm

/-- A message that only adds what it does not declare keeps it so that it is kept again. -/
theorem kept_of_readOnto {α : Type} [Keeping α] {set : α → Field → Option α} {numbers : List Nat}
    {depth : Nat} {bs : Bytes} {a b : α} (h : readOnto set depth a bs = some b)
    (ha : Kept set depth (unknown a))
    (undeclared : ∀ f, f.isDeclared numbers = false → ∀ a, set a f = some (keep a f.raw))
    (declared : ∀ f, f.isDeclared numbers = true → ∀ a b, set a f = some b → unknown b = unknown a) :
    Kept set depth (unknown b) := by
  refine readOnto_induction (P := fun a => Kept set depth (unknown a)) h ha ?_
  intro a f b hr hs hk
  cases hf : f.isDeclared numbers with
  | false =>
    have he := undeclared f hf
    obtain rfl := Option.some.inj ((he a).symm.trans hs)
    rw [Keeping.unknown_keep]
    exact hk.append (Kept.raw hr he)
  | true => rwa [declared f hf a b hs]

end Attribution.Wire
