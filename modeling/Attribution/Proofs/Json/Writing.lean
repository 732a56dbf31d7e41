import Attribution.Json.Writer
import Attribution.Proofs.Json.Grammar

namespace Attribution.Json

variable {d : Dialect} {depth : Nat} {value : Json} {c : Char}

/-- One line of characters that every terminal shows. -/
def Printable (cs : List Char) : Prop := ∀ c ∈ cs, 0x20 ≤ c.toNat ∧ c.toNat ≤ 0x7e

theorem Printable.append {cs rest : List Char} (h : Printable cs) (hr : Printable rest) :
    Printable (cs ++ rest) := by
  intro c hc
  exact (List.mem_append.mp hc).elim (h c) (hr c)

theorem Printable.cons {cs : List Char} (hc : 0x20 ≤ c.toNat ∧ c.toNat ≤ 0x7e) (h : Printable cs) :
    Printable (c :: cs) := List.forall_mem_cons.mpr ⟨hc, h⟩

theorem Printable.separated {cs : List Char} (hc : 0x20 ≤ c.toNat ∧ c.toNat ≤ 0x7e)
    (h : Printable cs) : Printable (c :: ' ' :: cs) := .cons hc (.cons (by decide) h)

theorem Printable.nil : Printable [] := by simp [Printable]

theorem hexDigit_facts : ∀ n < 16, hexValue? (Nat.digitChar n) = some n ∧
    0x20 ≤ (Nat.digitChar n).toNat ∧ (Nat.digitChar n).toNat ≤ 0x7e := by decide

theorem hexValue?_hexDigit (n : Nat) : hexValue? (Text.hexDigit n) = some (n % 16) :=
  (hexDigit_facts (n % 16) (Nat.mod_lt n (by decide))).1

theorem unitText_eq (n : Nat) : unitText n =
    ['\\', 'u', Text.hexDigit (n / 16 / 16 / 16), Text.hexDigit (n / 16 / 16),
      Text.hexDigit (n / 16), Text.hexDigit n] := rfl

theorem hexFour?_hexDigit {n : Nat} (h : n < 0x10000) :
    hexFour? (Text.hexDigit (n / 16 / 16 / 16)) (Text.hexDigit (n / 16 / 16))
      (Text.hexDigit (n / 16)) (Text.hexDigit n) = some n := by
  have hn : (((n / 16 / 16 / 16 % 16) * 16 + n / 16 / 16 % 16) * 16 + n / 16 % 16) * 16 + n % 16 =
      n := by omega
  simp only [hexFour?, hexValue?_hexDigit]
  exact congrArg some hn

theorem printable_unitText (n : Nat) : Printable (unitText n) := by
  have hd : ∀ n, 0x20 ≤ (Text.hexDigit n).toNat ∧ (Text.hexDigit n).toNat ≤ 0x7e :=
    fun n => (hexDigit_facts (n % 16) (Nat.mod_lt n (by decide))).2
  rw [unitText_eq]
  exact .cons (by decide) (.cons (by decide) (.cons (hd _) (.cons (hd _) (.cons (hd _)
    (.cons (hd _) .nil)))))

theorem codePoint_lt (c : Char) : c.toNat < 0x110000 := by
  have hv := c.valid
  simp only [UInt32.isValidChar, Nat.isValidChar] at hv
  simp only [Char.toNat]
  omega

theorem spelled_writeChar (c : Char) : CharSpelled c (writeChar c) := by
  have hmax := codePoint_lt c
  unfold writeChar
  dsimp only
  split
  iterate 7 exact .short rfl
  -- None of the characters with a short escape is left.
  next hq hb _ _ _ _ _ =>
    split
    next h => exact .plain h.1 hq hb
    next =>
      split
      next hn =>
        rw [unitText_eq]
        exact .unit (hexFour?_hexDigit hn)
      next hn =>
        have hhigh : isHigh (0xd800 + (c.toNat - 0x10000) / 0x400) = true := by
          simp only [isHigh, Bool.and_eq_true, decide_eq_true_eq]
          omega
        have hlow : isLow (0xdc00 + (c.toNat - 0x10000) % 0x400) = true := by
          simp only [isLow, Bool.and_eq_true, decide_eq_true_eq]
          omega
        rw [unitText_eq, unitText_eq]
        exact .pair (hexFour?_hexDigit (by omega)) (hexFour?_hexDigit (by omega)) hhigh hlow
          (by omega)

theorem printable_writeChar (c : Char) : Printable (writeChar c) := by
  unfold writeChar
  dsimp only
  split
  iterate 7 exact .cons (by decide) (.cons (by decide) .nil)
  next =>
    split
    next h => exact .cons ⟨h.1, by omega⟩ .nil
    next =>
      split
      next => exact printable_unitText _
      next => exact (printable_unitText _).append (printable_unitText _)

theorem spelled_flatMap_writeChar (s : List Char) : TextSpelled s (s.flatMap writeChar) := by
  induction s with
  | nil => exact .nil
  | cons c s ih => exact .cons (spelled_writeChar c) ih

theorem printable_writeString (s : String) : Printable (writeString s) := by
  have hs : Printable (s.toList.flatMap writeChar) := by
    intro c hc
    obtain ⟨b, _, hb⟩ := List.mem_flatMap.mp hc
    exact printable_writeChar b c hb
  exact .cons (by decide) (hs.append (.cons (by decide) .nil))

theorem ofDigits_natText (n : Nat) : Text.ofDigits ((Text.natText n).map digitValue) = n := by
  have hd : Text.ofDigits ((Text.natText n).map digitValue) =
      Nat.ofDigitChars 10 (Nat.toDigits 10 n) 0 := by
    rw [Nat.ofDigitChars_eq_foldl, Text.ofDigits, List.foldl_map]
    rfl
  rw [hd, Nat.ofDigitChars_ten_toDigits]

theorem head_natText {n : Nat} (hn : 0 < n) : (Text.natText n).head? ≠ some '0' := by
  induction n using Nat.strongRecOn with
  | ind n ih =>
    rw [Text.natText, Nat.toDigits_eq_if (by decide)]
    split
    next hlt =>
      have hd : ∀ m < 10, 0 < m → Nat.digitChar m ≠ '0' := by decide
      simpa using hd n hlt hn
    next hge =>
      have hh := ih (n / 10) (by omega) (by omega)
      have hne : Nat.toDigits 10 (n / 10) ≠ [] := Nat.toDigits_ne_nil
      obtain ⟨c, tail, he⟩ := List.exists_cons_of_ne_nil hne
      rw [Text.natText, he] at hh
      simpa [he] using hh

theorem isWhole_natText (n : Nat) : IsWhole (Text.natText n) where
  ne_nil := Nat.toDigits_ne_nil
  isDigit c hc := Nat.isDigit_of_mem_toDigits (by decide) (by decide) hc
  head h := by
    rcases Nat.eq_zero_or_pos n with rfl | hn
    · rfl
    · exact absurd h (head_natText hn)

theorem spelled_integerText {n : Int} (h : within d.maxInteger (Text.natText n.natAbs).length) :
    Spelled d depth (.integer n) (Text.integerText n) := by
  have hu : UnsignedSpelled d (decide (n < 0)) _ _ := .integer (isWhole_natText n.natAbs) h
  have hs : Spelled d depth _ _ := .number hu
  have hv : (if decide (n < 0) then -(n.natAbs : Int) else n.natAbs) = n := by
    split
    next hn =>
      have hneg := of_decide_eq_true hn
      omega
    next hn =>
      have hpos := mt decide_eq_true hn
      omega
  have ht : signText (decide (n < 0)) ++ Text.natText n.natAbs = Text.integerText n := by
    by_cases hn : n < 0
    · simp only [hn, decide_true, signText, Text.integerText, if_true, List.singleton_append]
    · simp only [hn, decide_false, signText, Text.integerText, if_false, Bool.false_eq_true,
        List.nil_append]
  rwa [ofDigits_natText, hv, ht] at hs

theorem printable_integerText (n : Int) : Printable (Text.integerText n) := by
  have hn : Printable (Text.natText n.natAbs) := by
    intro c hc
    have hd := Char.isDigit_iff_toNat.mp ((isWhole_natText n.natAbs).isDigit c hc)
    have h0 : '0'.toNat = 0x30 := rfl
    have h9 : '9'.toNat = 0x39 := rfl
    omega
  unfold Text.integerText
  split
  next => exact .cons (by decide) hn
  next => exact hn

/-- `Writable d depth value`: the value has no numbers too long for the dialect, no number with a
fraction and no broken string, no member hides another of its name, and what it opens fits into the
depth. -/
inductive Writable (d : Dialect) : Nat → Json → Prop where
  | null {depth : Nat} : Writable d depth .null
  | bool {depth : Nat} (b : Bool) : Writable d depth (.bool b)
  | integer {depth : Nat} {n : Int} (h : within d.maxInteger (Text.natText n.natAbs).length) :
      Writable d depth (.integer n)
  | text {depth : Nat} (s : String) : Writable d depth (.text s)
  | array {depth : Nat} {items : List Json} (h : ∀ i ∈ items, Writable d depth i) :
      Writable d (depth + 1) (.array items)
  | object {depth : Nat} {members : List (String × Json)} (hn : (members.map (·.1)).Nodup)
      (h : ∀ m ∈ members, Writable d depth m.2) : Writable d (depth + 1) (.object members)

theorem Writable.texts {d : Dialect} {depth : Nat} (texts : List String) :
    Writable d (depth + 1) (.array (texts.map .text)) := by
  apply Writable.array
  simp only [List.forall_mem_map]
  exact fun s _ => .text s

/-- An item as the writer puts it after a comma. -/
def writtenItem (before : List Char) (value : Json) : Item := ⟨before, value, write value, []⟩

/-- A member as the writer puts it after a comma. -/
def writtenMember (before : List Char) (m : String × Json) : Member :=
  ⟨m.1, m.1.toList.flatMap writeChar, [], writtenItem [' '] m.2, before⟩

theorem writeItems_cons (first : Json) (more : List Json) (before : List Char) :
    before ++ writeItems (first :: more) =
      joined Item.chars (writtenItem before first) (more.map (writtenItem [' '])) := by
  induction more generalizing first before with
  | nil => simp [writeItems, joined, Item.chars, writtenItem]
  | cons second more ih =>
    rw [List.map_cons, joined_cons, ← ih second [' ']]
    simp [writeItems, Item.chars, writtenItem]

theorem writeMembers_cons (first : String × Json) (more : List (String × Json))
    (before : List Char) :
    before ++ writeMembers (first :: more) =
      joined Member.chars (writtenMember before first) (more.map (writtenMember [' '])) := by
  induction more generalizing first before with
  | nil =>
    simp [writeMembers, writeString, joined, Member.chars, Item.chars, writtenMember, writtenItem]
  | cons second more ih =>
    rw [List.map_cons, joined_cons, ← ih second [' ']]
    simp [writeMembers, writeString, Member.chars, Item.chars, writtenMember, writtenItem]

theorem blank_nil : Blank [] := by simp [Blank]

theorem blank_space : Blank [' '] := by simp [Blank, isSpace]

theorem spaced_writtenItem {before : List Char} (hb : Blank before) (value : Json) :
    (writtenItem before value).Spaced := ⟨hb, blank_nil⟩

theorem spaced_writtenMember {before : List Char} (hb : Blank before) (m : String × Json) :
    (writtenMember before m).Spaced :=
  ⟨spelled_flatMap_writeChar _, hb, blank_nil, spaced_writtenItem blank_space _⟩

theorem spelled_write (h : Writable d depth value) : Spelled d depth value (write value) := by
  induction h with
  | null => exact .word (by simp [words])
  | bool b =>
    cases b with
    | true => exact .word (by simp [words])
    | false => exact .word (by simp [words])
  | integer h => exact spelled_integerText h
  | text s => exact .text (spelled_flatMap_writeChar s.toList)
  | @array depth items _ ih =>
    cases items with
    | nil => exact .emptyArray blank_nil
    | cons first more =>
      have hj := writeItems_cons first more []
      have hspaced : ∀ i ∈ writtenItem [] first :: more.map (writtenItem [' ']), i.Spaced := by
        simp only [List.forall_mem_cons, List.forall_mem_map]
        exact ⟨spaced_writtenItem blank_nil _, fun i _ => spaced_writtenItem blank_space i⟩
      have hspelled : ∀ i ∈ writtenItem [] first :: more.map (writtenItem [' ']),
          Spelled d depth i.value i.text := by
        simp only [List.forall_mem_cons, List.forall_mem_map]
        exact ⟨ih first (by simp), fun i hi => ih i (by simp [hi])⟩
      have ha := Spelled.array hspaced hspelled
      rw [← hj] at ha
      simpa [writtenItem, Function.comp_def, write] using ha
  | @object depth members _ _ ih =>
    cases members with
    | nil => exact .emptyObject blank_nil
    | cons first more =>
      have hj := writeMembers_cons first more []
      have hspaced : ∀ m ∈ writtenMember [] first :: more.map (writtenMember [' ']), m.Spaced := by
        simp only [List.forall_mem_cons, List.forall_mem_map]
        exact ⟨spaced_writtenMember blank_nil _, fun m _ => spaced_writtenMember blank_space m⟩
      have hspelled : ∀ m ∈ writtenMember [] first :: more.map (writtenMember [' ']),
          Spelled d depth m.item.value m.item.text := by
        simp only [List.forall_mem_cons, List.forall_mem_map]
        exact ⟨ih first (by simp), fun m hm => ih m (by simp [hm])⟩
      have ha := Spelled.object hspaced hspelled
      rw [← hj] at ha
      simpa [writtenMember, writtenItem, Function.comp_def, write] using ha

theorem printable_writeItems {items : List Json} (h : ∀ i ∈ items, Printable (write i)) :
    Printable (writeItems items) := by
  induction items with
  | nil => exact .nil
  | cons first more ih =>
    have hf := h first (by simp)
    have hm := ih fun i hi => h i (by simp [hi])
    cases more with
    | nil => simpa [writeItems] using hf
    | cons second more =>
      rw [writeItems]
      · exact hf.append (.separated (by decide) hm)
      · simp

theorem printable_writeMembers {members : List (String × Json)}
    (h : ∀ m ∈ members, Printable (write m.2)) : Printable (writeMembers members) := by
  induction members with
  | nil => exact .nil
  | cons first more ih =>
    have hf := h first (by simp)
    have hk := printable_writeString first.1
    have hm := ih fun m hm => h m (by simp [hm])
    cases more with
    | nil =>
      rw [writeMembers]
      exact hk.append (.separated (by decide) hf)
    | cons second more =>
      rw [writeMembers]
      · exact hk.append (.separated (by decide) (hf.append (.separated (by decide) hm)))
      · simp

theorem printable_write (h : Writable d depth value) : Printable (write value) := by
  induction h with
  | null => simp [Printable, write]
  | bool b =>
    cases b with
    | true => simp [Printable, write]
    | false => simp [Printable, write]
  | integer => exact printable_integerText _
  | text s => exact printable_writeString s
  | array _ ih =>
    exact .cons (by decide) ((printable_writeItems ih).append (.cons (by decide) .nil))
  | object _ _ ih =>
    exact .cons (by decide) ((printable_writeMembers ih).append (.cons (by decide) .nil))

theorem read_write (h : Writable d depth value) (hd : ∀ most ∈ d.maxDepth, depth ≤ most) :
    read d (write value) = .ok value := by
  simpa using read_of_spelled (spelled_write h) hd blank_nil blank_nil

/-- In every object of the value all names are different, so none of it is lost when objects become
tables. -/
inductive Distinct : Json → Prop where
  | null : Distinct .null
  | bool (b : Bool) : Distinct (.bool b)
  | integer (n : Int) : Distinct (.integer n)
  | text (s : String) : Distinct (.text s)
  | array {items : List Json} (h : ∀ i ∈ items, Distinct i) : Distinct (.array items)
  | object {members : List (String × Json)} (hn : (members.map (·.1)).Nodup)
      (h : ∀ m ∈ members, Distinct m.2) : Distinct (.object members)

theorem Writable.distinct (h : Writable d depth value) : Distinct value := by
  induction h with
  | null => exact .null
  | bool b => exact .bool b
  | integer => exact .integer _
  | text s => exact .text s
  | array _ ih => exact .array ih
  | object hn _ ih => exact .object hn ih

end Attribution.Json
