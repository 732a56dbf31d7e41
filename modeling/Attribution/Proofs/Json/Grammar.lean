import Attribution.Proofs.Json.Spelling

namespace Attribution.Json

def Blank (cs : List Char) : Prop := ∀ c ∈ cs, isSpace c = true

/-- An item of an array as it is written, with the blanks around it. -/
structure Item where
  before : List Char
  value : Json
  text : List Char
  after : List Char

namespace Item

def chars (item : Item) : List Char := item.before ++ (item.text ++ item.after)

structure Spaced (item : Item) : Prop where
  before : Blank item.before
  after : Blank item.after

end Item

/-- A member of an object as it is written. -/
structure Member where
  name : String
  /-- What stands between the quotes of the name. -/
  label : List Char
  beforeColon : List Char
  item : Item
  beforeName : List Char

namespace Member

def chars (member : Member) : List Char :=
  member.beforeName ++
    ('"' :: (member.label ++ ('"' :: (member.beforeColon ++ (':' :: member.item.chars)))))

structure Spaced (member : Member) : Prop where
  label : TextSpelled member.name.toList member.label
  beforeName : Blank member.beforeName
  beforeColon : Blank member.beforeColon
  item : member.item.Spaced

end Member

/-- The parts one after another with a comma before all but the first. -/
def joined {α : Type} (chars : α → List Char) (first : α) (more : List α) : List Char :=
  chars first ++ more.flatMap fun part => ',' :: chars part

/-- `Spelled d depth value text`: the text writes the value in the dialect, and what it opens fits
into the depth. -/
inductive Spelled (d : Dialect) : Nat → Json → List Char → Prop where
  | word {depth : Nat} {word : String} {value : Json} (h : (word, value) ∈ words) :
      Spelled d depth value word.toList
  | number {depth : Nat} {negative : Bool} {value : Json} {cs : List Char}
      (h : UnsignedSpelled d negative value cs) : Spelled d depth value (signText negative ++ cs)
  | text {depth : Nat} {s : String} {cs : List Char} (h : TextSpelled s.toList cs) :
      Spelled d depth (.text s) ('"' :: (cs ++ ['"']))
  | emptyArray {depth : Nat} {blank : List Char} (h : Blank blank) :
      Spelled d depth (.array []) ('[' :: (blank ++ [']']))
  | emptyObject {depth : Nat} {blank : List Char} (h : Blank blank) :
      Spelled d depth (.object []) ('\x7b' :: (blank ++ ['\x7d']))
  | array {depth : Nat} {first : Item} {more : List Item} (hs : ∀ i ∈ first :: more, i.Spaced)
      (h : ∀ i ∈ first :: more, Spelled d depth i.value i.text) :
      Spelled d (depth + 1) (.array ((first :: more).map (·.value)))
        ('[' :: (joined Item.chars first more ++ [']']))
  | object {depth : Nat} {first : Member} {more : List Member}
      (hs : ∀ m ∈ first :: more, m.Spaced)
      (h : ∀ m ∈ first :: more, Spelled d depth m.item.value m.item.text) :
      Spelled d (depth + 1) (.object ((first :: more).map fun m => (m.name, m.item.value)))
        ('\x7b' :: (joined Member.chars first more ++ ['\x7d']))

variable {d : Dialect} {depth steps : Nat} {value : Json} {cs rest : List Char} {c : Char}

/-- What a text that writes a value begins with. -/
structure Opens (c : Char) : Prop where
  notSpace : isSpace c = false
  notArray : c ≠ ']'
  notObject : c ≠ '\x7d'

/-- The text begins as the text of a value does. -/
def Begins (cs : List Char) : Prop := ∃ c tail, cs = c :: tail ∧ Opens c

/-- What words and numbers begin with. -/
def IsPlain (c : Char) : Prop := c.isDigit = true ∨ c ∈ ['-', 'n', 't', 'f', 'N', 'I']

theorem IsPlain.ne (h : IsPlain c) {b : Char} (hd : b.isDigit = false)
    (hb : b ∉ ['-', 'n', 't', 'f', 'N', 'I']) : c ≠ b := by
  rintro rfl
  rcases h with h | h
  · simp [hd] at h
  · exact hb h

theorem IsPlain.opens (h : IsPlain c) : Opens c where
  notSpace := by
    simp [isSpace, h.ne (b := ' ') rfl (by decide), h.ne (b := '\t') rfl (by decide),
      h.ne (b := '\n') rfl (by decide), h.ne (b := '\r') rfl (by decide)]
  notArray := h.ne rfl (by decide)
  notObject := h.ne rfl (by decide)

theorem head_of_mem_words {word : String} (h : (word, value) ∈ words) :
    ∃ c tail, word.toList = c :: tail ∧ IsPlain c := by
  simp only [words, List.mem_cons, List.not_mem_nil, or_false, Prod.mk.injEq] at h
  rcases h with ⟨rfl, _⟩ | ⟨rfl, _⟩ | ⟨rfl, _⟩ | ⟨rfl, _⟩ | ⟨rfl, _⟩ | ⟨rfl, _⟩
  · exact ⟨'n', _, rfl, .inr (by decide)⟩
  · exact ⟨'t', _, rfl, .inr (by decide)⟩
  · exact ⟨'f', _, rfl, .inr (by decide)⟩
  · exact ⟨'N', _, rfl, .inr (by decide)⟩
  · exact ⟨'I', _, rfl, .inr (by decide)⟩
  · exact ⟨'-', _, rfl, .inr (by decide)⟩

theorem head_of_number {negative : Bool} (h : UnsignedSpelled d negative value cs) :
    ∃ c tail, signText negative ++ cs = c :: tail ∧ IsPlain c := by
  obtain ⟨c, tail, rfl, hc⟩ := h.head
  cases negative with
  | true => exact ⟨'-', c :: tail, rfl, .inr (by decide)⟩
  | false => exact ⟨c, tail, rfl, .inl hc⟩

theorem Spelled.begins (h : Spelled d depth value cs) : Begins cs := by
  cases h with
  | word h =>
    obtain ⟨c, tail, he, hc⟩ := head_of_mem_words h
    exact ⟨c, tail, he, hc.opens⟩
  | number h =>
    obtain ⟨c, tail, he, hc⟩ := head_of_number h
    exact ⟨c, tail, he, hc.opens⟩
  | text => exact ⟨'"', _, rfl, by decide, by decide, by decide⟩
  | emptyArray => exact ⟨'[', _, rfl, by decide, by decide, by decide⟩
  | emptyObject => exact ⟨'\x7b', _, rfl, by decide, by decide, by decide⟩
  | array => exact ⟨'[', _, rfl, by decide, by decide, by decide⟩
  | object => exact ⟨'\x7b', _, rfl, by decide, by decide, by decide⟩

theorem skipSpace_append {blank : List Char} (hb : Blank blank) (hc : isSpace c = false) :
    skipSpace (blank ++ c :: rest) = c :: rest := by
  rw [skipSpace, List.dropWhile_append_of_pos hb, List.dropWhile_cons_of_neg (by simp [hc])]

theorem readValue_plain (hc : IsPlain c) :
    readValue d (steps + 1) depth (c :: cs) =
      ((readWord (c :: cs)).map Except.ok).getD (wellFormed (readNumber d (c :: cs))) := by
  have ha : c ≠ '[' := hc.ne rfl (by decide)
  have ho : c ≠ '\x7b' := hc.ne rfl (by decide)
  have hq : c ≠ '"' := hc.ne rfl (by decide)
  rw [readValue]
  · cases readWord (c :: cs) with
    | none => rfl
    | some p => rfl
  all_goals simp_all

theorem readValue_array {body : List Char} (hb : skipSpace cs = c :: body) (hc : Opens c) :
    readValue d (steps + 1) (depth + 1) ('[' :: cs) =
      (readItems d steps depth (c :: body)).map fun p => (.array p.1, p.2) := by
  have hne := hc.notArray
  rw [readValue, hb]
  split
  next h => simp_all
  next => rfl

theorem readValue_object {body : List Char} (hb : skipSpace cs = c :: body) (hc : c ≠ '\x7d') :
    readValue d (steps + 1) (depth + 1) ('\x7b' :: cs) =
      (readMembers d steps depth (c :: body)).map fun p => (.object p.1, p.2) := by
  rw [readValue, hb]
  split
  next h => simp_all
  next => rfl

/-- The reader finds the value wherever its text stands, if it has two steps for every character. -/
def ReadsBack (d : Dialect) (depth : Nat) (value : Json) (cs : List Char) : Prop :=
  ∀ rest steps, Stops rest → 2 * cs.length ≤ steps →
    readValue d steps depth (cs ++ rest) = .ok (value, rest)

theorem stops_cons (hc : c = ',' ∨ c = ']' ∨ c = '\x7d') : Stops (c :: rest) := by
  intro b hm
  obtain rfl : c = b := by simpa using hm
  rcases hc with rfl | rfl | rfl
  all_goals decide

theorem stops_append {blank : List Char} (hb : Blank blank) (hr : Stops rest) :
    Stops (blank ++ rest) := by
  apply Text.forall_head?_append _ hr
  intro c hm
  have hs := hb c (List.mem_of_mem_head? hm)
  simp only [isSpace, Bool.or_eq_true, decide_eq_true_eq] at hs
  rcases hs with ((rfl | rfl) | rfl) | rfl
  all_goals decide

theorem skipSpace_item {item : Item} (hs : item.Spaced) (ho : Begins item.text)
    (rest : List Char) : skipSpace (item.chars ++ rest) = item.text ++ (item.after ++ rest) := by
  obtain ⟨c, tail, ht, hc⟩ := ho
  simp only [Item.chars, ht, List.append_assoc, List.cons_append]
  exact skipSpace_append hs.before hc.notSpace

theorem joined_cons {α : Type} (chars : α → List Char) (first second : α) (more : List α) :
    joined chars first (second :: more) = chars first ++ (',' :: joined chars second more) := by
  simp [joined]

theorem readItems_joined {first : Item} {more : List Item} (rest : List Char)
    (hs : ∀ i ∈ first :: more, i.Spaced)
    (ho : ∀ i ∈ first :: more, Begins i.text)
    (hr : ∀ i ∈ first :: more, ReadsBack d depth i.value i.text)
    (hsteps : 2 * (joined Item.chars first more).length + 1 ≤ steps) :
    readItems d steps depth (skipSpace (joined Item.chars first more ++ ']' :: rest)) =
      .ok ((first :: more).map (·.value), rest) := by
  induction more generalizing first steps with
  | nil =>
    obtain ⟨steps, rfl⟩ : ∃ n, steps = n + 1 := ⟨steps - 1, by omega⟩
    simp only [joined, List.flatMap_nil, List.append_nil, Item.chars, List.length_append] at hsteps
    have hb := (hs first (by simp)).after
    have hread := hr first (by simp) (first.after ++ ']' :: rest) steps
      (stops_append hb (stops_cons (by simp))) (by omega)
    rw [joined, List.flatMap_nil, List.append_nil,
      skipSpace_item (hs first (by simp)) (ho first (by simp)), readItems, hread]
    simp only [skipSpace_append hb (by decide : isSpace ']' = false)]
    rfl
  | cons second more ih =>
    obtain ⟨steps, rfl⟩ : ∃ n, steps = n + 1 := ⟨steps - 1, by omega⟩
    rw [joined_cons] at hsteps ⊢
    simp only [Item.chars, List.length_append, List.length_cons] at hsteps
    have hb := (hs first (by simp)).after
    have hfewer : 2 * (joined Item.chars second more).length + 1 ≤ steps := by omega
    have hmore := ih (fun i hi => hs i (by simp [hi])) (fun i hi => ho i (by simp [hi]))
      (fun i hi => hr i (by simp [hi])) hfewer
    have hread := hr first (by simp)
      (first.after ++ ',' :: (joined Item.chars second more ++ ']' :: rest)) steps
      (stops_append hb (stops_cons (by simp))) (by omega)
    rw [List.append_assoc, List.cons_append,
      skipSpace_item (hs first (by simp)) (ho first (by simp)), readItems, hread]
    simp only [skipSpace_append hb (by decide : isSpace ',' = false), hmore]
    rfl

theorem readMembers_member {m : Member} (hs : m.Spaced) (ho : Begins m.item.text)
    (hr : ReadsBack d depth m.item.value m.item.text) (hx : Stops (m.item.after ++ rest))
    (hsteps : 2 * m.item.text.length ≤ steps) :
    (∀ tail, skipSpace (m.item.after ++ rest) = '\x7d' :: tail →
      readMembers d (steps + 1) depth (skipSpace (m.chars ++ rest)) =
        .ok ([(m.name, m.item.value)], tail)) ∧
    (∀ tail, skipSpace (m.item.after ++ rest) = ',' :: tail →
      readMembers d (steps + 1) depth (skipSpace (m.chars ++ rest)) =
        (readMembers d steps depth (skipSpace tail)).map
          fun p => ((m.name, m.item.value) :: p.1, p.2)) := by
  have hname : skipSpace (m.chars ++ rest) =
      '"' :: (m.label ++ '"' :: (m.beforeColon ++ ':' :: (m.item.chars ++ rest))) := by
    simp only [Member.chars, List.append_assoc, List.cons_append]
    exact skipSpace_append hs.beforeName (by decide)
  have hcolon : skipSpace (m.beforeColon ++ ':' :: (m.item.chars ++ rest)) =
      ':' :: (m.item.chars ++ rest) := skipSpace_append hs.beforeColon (by decide)
  have hread := hr (m.item.after ++ rest) steps hx hsteps
  rw [hname, readMembers, readString_text hs.label]
  simp only [hcolon, skipSpace_item hs.item ho, hread]
  constructor
  · intro tail ht
    rw [ht]
    rfl
  · intro tail ht
    rw [ht]
    rfl

theorem readMembers_joined {first : Member} {more : List Member} (rest : List Char)
    (hs : ∀ m ∈ first :: more, m.Spaced)
    (ho : ∀ m ∈ first :: more, Begins m.item.text)
    (hr : ∀ m ∈ first :: more, ReadsBack d depth m.item.value m.item.text)
    (hsteps : 2 * (joined Member.chars first more).length + 1 ≤ steps) :
    readMembers d steps depth (skipSpace (joined Member.chars first more ++ '\x7d' :: rest)) =
      .ok ((first :: more).map fun m => (m.name, m.item.value), rest) := by
  have hlen : ∀ m : Member, m.item.text.length ≤ m.chars.length := by
    intro m
    simp only [Member.chars, Item.chars, List.length_append, List.length_cons]
    omega
  have hfirst := hlen first
  have hb := (hs first (by simp)).item.after
  induction more generalizing first steps with
  | nil =>
    obtain ⟨steps, rfl⟩ : ∃ n, steps = n + 1 := ⟨steps - 1, by omega⟩
    simp only [joined, List.flatMap_nil, List.append_nil] at hsteps ⊢
    have hfits : 2 * first.item.text.length ≤ steps := by omega
    have hstops : Stops (first.item.after ++ '\x7d' :: rest) :=
      stops_append hb (stops_cons (by simp))
    have hmember := readMembers_member (hs first (by simp)) (ho first (by simp)) (hr first (by simp))
      hstops hfits
    exact hmember.1 _ (skipSpace_append hb (by decide))
  | cons second more ih =>
    obtain ⟨steps, rfl⟩ : ∃ n, steps = n + 1 := ⟨steps - 1, by omega⟩
    rw [joined_cons] at hsteps ⊢
    simp only [List.length_append, List.length_cons] at hsteps
    have hmore := ih (fun m hm => hs m (by simp [hm])) (fun m hm => ho m (by simp [hm]))
      (fun m hm => hr m (by simp [hm])) (by omega : _ ≤ steps) (hlen second)
      (hs second (by simp)).item.after
    have hfits : 2 * first.item.text.length ≤ steps := by omega
    have hstops : Stops
        (first.item.after ++ ',' :: (joined Member.chars second more ++ '\x7d' :: rest)) :=
      stops_append hb (stops_cons (by simp))
    have hmember := readMembers_member (hs first (by simp)) (ho first (by simp)) (hr first (by simp))
      hstops hfits
    rw [List.append_assoc, List.cons_append, hmember.2 _ (skipSpace_append hb (by decide)), hmore]
    rfl

theorem skipSpace_joined {first : Item} (hs : first.Spaced)
    (ho : Begins first.text) (more : List Item) (rest : List Char) :
    ∃ c body, skipSpace (joined Item.chars first more ++ rest) = c :: body ∧ Opens c := by
  rw [joined, List.append_assoc, skipSpace_item hs ho]
  obtain ⟨c, tail, ht, hc⟩ := ho
  exact ⟨c, _, by rw [ht, List.cons_append], hc⟩

theorem skipSpace_joined_member {first : Member} (hs : first.Spaced) (more : List Member)
    (rest : List Char) :
    ∃ body, skipSpace (joined Member.chars first more ++ rest) = '"' :: body := by
  simp only [joined, Member.chars, List.append_assoc, List.cons_append]
  exact ⟨_, skipSpace_append hs.beforeName (by decide)⟩

theorem Spelled.readsBack (h : Spelled d depth value cs) : ReadsBack d depth value cs := by
  induction h with
  | @word depth word value h =>
    intro rest steps _ hsteps
    obtain ⟨c, tail, hw, hc⟩ := head_of_mem_words h
    have hread := readWord_append h rest
    rw [hw] at hsteps hread ⊢
    obtain ⟨steps, rfl⟩ : ∃ n, steps = n + 1 := ⟨steps - 1, by simp at hsteps; omega⟩
    rw [List.cons_append] at hread ⊢
    rw [readValue_plain hc, hread]
    rfl
  | @number depth negative value cs h =>
    intro rest steps hr hsteps
    obtain ⟨c, tail, hw, hc⟩ := head_of_number h
    have hword := readWord_number h rest
    have hread := readNumber_append h hr
    rw [hw] at hsteps hword hread ⊢
    obtain ⟨steps, rfl⟩ : ∃ n, steps = n + 1 := ⟨steps - 1, by simp at hsteps; omega⟩
    rw [List.cons_append] at hword hread ⊢
    rw [readValue_plain hc, hword, hread]
    rfl
  | @text depth s cs h =>
    intro rest steps _ hsteps
    obtain ⟨steps, rfl⟩ : ∃ n, steps = n + 1 := ⟨steps - 1, by simp at hsteps; omega⟩
    have hread := readString_text (d := d) h rest
    rw [List.cons_append, List.append_assoc, List.singleton_append, readValue, hread]
    rfl
  | @emptyArray depth blank hb =>
    intro rest steps _ hsteps
    obtain ⟨steps, rfl⟩ : ∃ n, steps = n + 1 := ⟨steps - 1, by simp at hsteps; omega⟩
    have hskip : skipSpace (blank ++ ']' :: rest) = ']' :: rest := skipSpace_append hb (by decide)
    rw [List.cons_append, List.append_assoc, List.singleton_append, readValue, hskip]
    rfl
  | @emptyObject depth blank hb =>
    intro rest steps _ hsteps
    obtain ⟨steps, rfl⟩ : ∃ n, steps = n + 1 := ⟨steps - 1, by simp at hsteps; omega⟩
    have hskip : skipSpace (blank ++ '\x7d' :: rest) = '\x7d' :: rest :=
      skipSpace_append hb (by decide)
    rw [List.cons_append, List.append_assoc, List.singleton_append, readValue, hskip]
    rfl
  | @array depth first more hs h ih =>
    intro rest steps _ hsteps
    obtain ⟨steps, rfl⟩ : ∃ n, steps = n + 1 := ⟨steps - 1, by simp at hsteps; omega⟩
    -- The brackets take no part in the bound for the items.
    simp only [List.length_cons, List.length_append] at hsteps
    have ho : ∀ i ∈ first :: more, Begins i.text := fun i hi => (h i hi).begins
    have hitems := readItems_joined rest hs ho ih
      (by omega : 2 * (joined Item.chars first more).length + 1 ≤ steps)
    obtain ⟨c, body, hb, hc⟩ :=
      skipSpace_joined (hs first (by simp)) (ho first (by simp)) more (']' :: rest)
    rw [List.cons_append, List.append_assoc, List.singleton_append, readValue_array hb hc, ← hb,
      hitems]
    rfl
  | @object depth first more hs h ih =>
    intro rest steps _ hsteps
    obtain ⟨steps, rfl⟩ : ∃ n, steps = n + 1 := ⟨steps - 1, by simp at hsteps; omega⟩
    simp only [List.length_cons, List.length_append] at hsteps
    have ho : ∀ m ∈ first :: more, Begins m.item.text := fun m hm => (h m hm).begins
    have hmembers := readMembers_joined rest hs ho ih
      (by omega : 2 * (joined Member.chars first more).length + 1 ≤ steps)
    obtain ⟨body, hb⟩ := skipSpace_joined_member (hs first (by simp)) more ('\x7d' :: rest)
    rw [List.cons_append, List.append_assoc, List.singleton_append,
      readValue_object hb (by decide), ← hb, hmembers]
    rfl

theorem Spelled.deeper {more : Nat} (h : Spelled d depth value cs) (hd : depth ≤ more) :
    Spelled d more value cs := by
  induction h generalizing more with
  | word h => exact .word h
  | number h => exact .number h
  | text h => exact .text h
  | emptyArray h => exact .emptyArray h
  | emptyObject h => exact .emptyObject h
  | array hs _ ih =>
    obtain ⟨most, rfl⟩ : ∃ n, more = n + 1 := ⟨more - 1, by omega⟩
    exact .array hs fun i hi => ih i hi (by omega)
  | object hs _ ih =>
    obtain ⟨most, rfl⟩ : ∃ n, more = n + 1 := ⟨more - 1, by omega⟩
    exact .object hs fun m hm => ih m hm (by omega)

theorem length_le_joined {α : Type} (chars : α → List Char) {first part : α} {more : List α}
    (h : part ∈ first :: more) : (chars part).length ≤ (joined chars first more).length := by
  simp only [joined, List.length_append]
  rcases List.mem_cons.mp h with rfl | h
  · omega
  · obtain ⟨left, right, rfl⟩ := List.append_of_mem h
    simp only [List.flatMap_append, List.flatMap_cons, List.length_append, List.length_cons]
    omega

/-- No text opens more than it has characters. -/
theorem Spelled.within_length (h : Spelled d depth value cs) : Spelled d cs.length value cs := by
  induction h with
  | word h => exact .word h
  | number h => exact .number h
  | text h => exact .text h
  | emptyArray h => exact .emptyArray h
  | emptyObject h => exact .emptyObject h
  | @array depth first more hs _ ih =>
    rw [List.length_cons]
    refine .array hs fun i hi => (ih i hi).deeper ?_
    have hl := length_le_joined Item.chars hi
    simp only [Item.chars, List.length_append, List.length_singleton] at hl ⊢
    omega
  | @object depth first more hs _ ih =>
    rw [List.length_cons]
    refine .object hs fun m hm => (ih m hm).deeper ?_
    have hl := length_le_joined Member.chars hm
    simp only [Member.chars, Item.chars, List.length_append, List.length_cons] at hl ⊢
    omega

theorem read_of_spelled {before after : List Char} (h : Spelled d depth value cs)
    (hd : ∀ most ∈ d.maxDepth, depth ≤ most) (hb : Blank before) (ha : Blank after) :
    read d (before ++ (cs ++ after)) = .ok value := by
  have hdepth : Spelled d (d.maxDepth.getD (before ++ (cs ++ after)).length) value cs := by
    cases hm : d.maxDepth with
    | none => exact h.within_length.deeper (by simp only [List.length_append, Option.getD]; omega)
    | some most => exact h.deeper (hd most hm)
  obtain ⟨c, tail, ht, hc⟩ := h.begins
  have hskip : skipSpace (before ++ (cs ++ after)) = cs ++ after := by
    rw [ht]
    exact skipSpace_append hb hc.notSpace
  have hstops : Stops after := by
    rw [← List.append_nil after]
    exact stops_append ha (by simp [Stops])
  have hend : skipSpace after = [] := by
    rw [← List.append_nil after, skipSpace, List.dropWhile_append_of_pos ha, List.dropWhile_nil]
  have hread := hdepth.readsBack after (2 * (before ++ (cs ++ after)).length + 2) hstops
    (by simp only [List.length_append]; omega)
  rw [read, hskip, hread]
  simp only [bind, Except.bind, hend]
  rfl

end Attribution.Json
