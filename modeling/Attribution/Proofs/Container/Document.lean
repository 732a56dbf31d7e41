import Attribution.Proofs.Container.Locality
import Attribution.Proofs.Container.Options

namespace Attribution.RuntimeSpec

open Json (Binds)

/-- The members write a mount, among others of any name. -/
structure WritesMount (m : Mount) (entry : List (String × Json)) : Prop where
  source : Binds entry "source" (.text m.source)
  destination : Binds entry "destination" (.text m.destination)
  options : ∃ options : List String, Binds entry "options" (.array (options.map .text)) ∧
    OptionsSay options (!m.readWrite) m.mode

/-- The members write mounts, environment and propagation, in any order and among others. -/
structure Writes (mounts : List Mount) (env : List String) (propagation : String)
    (members : List (String × Json)) : Prop where
  /-- A specification has one propagation for all mounts. -/
  shared : ∀ m ∈ mounts, m.propagation = propagation
  mounts : ∃ entries : List (List (String × Json)),
    Binds members "mounts" (.array (entries.map .object)) ∧ List.Forall₂ WritesMount mounts entries
  env : ∃ process, Binds members "process" (.object process) ∧
    Binds process "env" (.array (env.map .text))
  propagation : ∃ linux, Binds members "linux" (.object linux) ∧
    Binds linux "rootfsPropagation" (.text propagation)

section

variable {mounts : List Mount} {env : List String} {propagation : String}
  {members : List (String × Json)}

theorem recordMount_of_writes {m : Mount} {entry : List (String × Json)} (h : WritesMount m entry) :
    recordMount m.propagation (mountOf (.object entry)) = m := by
  obtain ⟨options, hoptions, hsay⟩ := h.options
  have hs := Json.textAt_of_text h.source.lookup?
  have hd := Json.textAt_of_text h.destination.lookup?
  have ho := Json.textsAt_of_texts hoptions.lookup?
  simp only [recordMount, mountOf, hs, hd, ho, readOptions_of_say hsay, Bool.not_not]

theorem map_recordMount_of_writes {entries : List (List (String × Json))}
    (h : List.Forall₂ WritesMount mounts entries) (hp : ∀ m ∈ mounts, m.propagation = propagation) :
    (entries.map fun entry => recordMount propagation (mountOf (.object entry))) = mounts := by
  induction h with
  | nil => rfl
  | cons hm _ ih =>
    obtain ⟨hfirst, hmore⟩ := List.forall_mem_cons.mp hp
    have hrecord := recordMount_of_writes hm
    rw [hfirst] at hrecord
    rw [List.map_cons, hrecord, ih hmore]

theorem ofMembers_of_writes (h : Writes mounts env propagation members) :
    (ofMembers members).recordMounts = mounts ∧ (ofMembers members).env = env := by
  obtain ⟨entries, hentries, hwrites⟩ := h.mounts
  obtain ⟨process, hprocess, henv⟩ := h.env
  obtain ⟨linux, hlinux, hpropagation⟩ := h.propagation
  have hp : (ofMembers members).propagation = propagation := by
    rw [ofMembers, Json.membersAt_of_object hlinux.lookup?, Json.textAt_of_text hpropagation.lookup?]
  constructor
  · rw [recordMounts_eq, mounts_of_array hentries.lookup?, hp, List.map_map, List.map_map]
    exact map_recordMount_of_writes hwrites h.shared
  · rw [ofMembers, Json.membersAt_of_object hprocess.lookup?, Json.textsAt_of_texts henv.lookup?]

/-- Every text that spells a document, with blanks around it, is read as what the document writes. -/
theorem parse_of_writes {depth : Nat} {before text after : List Char}
    (h : Writes mounts env propagation members)
    (hs : Json.Spelled dialect depth (.object members) text)
    (hd : ∀ most ∈ dialect.maxDepth, depth ≤ most) (hb : Json.Blank before)
    (ha : Json.Blank after) :
    ∃ spec, parse (Utf8.encode (before ++ (text ++ after))) = (spec, false) ∧
      spec.recordMounts = mounts ∧ spec.env = env := by
  have hreads : Reads (Utf8.encode (before ++ (text ++ after))) (.object members) :=
    ⟨_, Utf8.decode_encode _, Json.read_of_spelled hs hd hb ha⟩
  exact ⟨ofMembers members, parse_of_reads hreads, ofMembers_of_writes h⟩

end

namespace Cluttered

def options : List String := ["mode=1", "ro", "rox", "mode", "mode==7", "ro"]

def environment : List String := ["A=1", "", "ß=\"2\""]

def mount : Mount := ⟨"a\n\\b", "/données", "=7", false, "rslave"⟩

def entry : List (String × Json) :=
  [("options", .array (options.map .text)), ("type", .text "bind"),
    ("destination", .text "/données"), ("source", .text "a\n\\b")]

/-- Members stand in no usual order, some are unknown, and one is known in another place only. -/
def document : List (String × Json) :=
  [("linux", .object [("seccomp", .null), ("rootfsPropagation", .text "rslave")]),
    ("env", .array [.integer 7]), ("mounts", .array [.object entry]),
    ("process", .object [("args", .array []), ("env", .array (environment.map .text))])]

theorem writable_entry : Json.Writable dialect 2 (.object entry) := by
  apply Json.Writable.object (by decide)
  simp only [entry, List.forall_mem_cons]
  exact ⟨.texts options, .text _, .text _, .text _, by simp⟩

theorem writable_document : Json.Writable dialect 4 (.object document) := by
  have hlinux : Json.Writable dialect 3
      (.object [("seccomp", .null), ("rootfsPropagation", .text "rslave")]) := by
    apply Json.Writable.object (by decide)
    simp only [List.forall_mem_cons]
    exact ⟨.null, .text _, by simp⟩
  have hunknown : Json.Writable dialect 3 (.array [.integer 7]) := by
    apply Json.Writable.array
    simp only [List.forall_mem_cons]
    exact ⟨.integer (by decide), by simp⟩
  have hmounts : Json.Writable dialect 3 (.array [.object entry]) := by
    apply Json.Writable.array
    simpa using writable_entry
  have hprocess : Json.Writable dialect 3
      (.object [("args", .array []), ("env", .array (environment.map .text))]) := by
    apply Json.Writable.object (by decide)
    simp only [List.forall_mem_cons]
    exact ⟨.array (by simp), .texts environment, by simp⟩
  apply Json.Writable.object (by decide)
  simp only [document, List.forall_mem_cons]
  exact ⟨hlinux, hunknown, hmounts, hprocess, by simp⟩

theorem writes_document : Writes [mount] environment "rslave" document where
  shared := by simp [mount]
  mounts := by
    have hsay : OptionsSay options true "=7" :=
      ⟨by decide, .inl ⟨["mode=1", "ro", "rox", "mode"], ["ro"], rfl, by decide⟩⟩
    exact ⟨[entry], ⟨document.take 2, document.drop 3, rfl, by decide⟩,
      .cons ⟨⟨entry.take 3, [], rfl, by decide⟩, ⟨entry.take 2, entry.drop 3, rfl, by decide⟩,
        options, ⟨[], entry.drop 1, rfl, by decide⟩, hsay⟩ .nil⟩
  env := ⟨_, ⟨document.take 3, [], rfl, by decide⟩, ⟨[("args", .array [])], [], rfl, by decide⟩⟩
  propagation := ⟨_, ⟨[], document.drop 1, rfl, by decide⟩,
    ⟨[("seccomp", .null)], [], rfl, by decide⟩⟩

theorem parse_cluttered :
    Writes [mount] environment "rslave" document ∧
      Json.Spelled dialect 4 (.object document) (Json.write (.object document)) ∧
      (∀ most ∈ dialect.maxDepth, 4 ≤ most) ∧ Json.Blank "\n\t ".toList ∧ Json.Blank ['\n'] ∧
      ∃ spec, parse (Utf8.encode ("\n\t ".toList ++ (Json.write (.object document) ++ ['\n']))) =
        (spec, false) ∧ spec.recordMounts = [mount] ∧ spec.env = environment := by
  have hs := Json.spelled_write writable_document
  have hd : ∀ most ∈ dialect.maxDepth, 4 ≤ most := by
    intro most hm
    obtain rfl := Option.some.inj hm
    decide
  have hb : Json.Blank "\n\t ".toList := by simp [Json.Blank, Json.isSpace]
  have ha : Json.Blank ['\n'] := by simp [Json.Blank, Json.isSpace]
  exact ⟨writes_document, hs, hd, hb, ha, parse_of_writes writes_document hs hd hb ha⟩

end Cluttered
end Attribution.RuntimeSpec
