import Attribution.Event.Emitter
import Attribution.Proofs.Json.Path
import Attribution.Proofs.Json.Writing
import Attribution.Proofs.Table
import Attribution.Proofs.Text.Part

namespace Attribution

/-- Room for events: they nest four deep, and their numbers may be as long as a number can be. -/
structure Json.Dialect.Roomy (d : Json.Dialect) : Prop where
  depth : ∀ most ∈ d.maxDepth, 4 ≤ most
  digits : ∀ most ∈ d.maxInteger, Text.maxDigits ≤ most

namespace Event

open Json (Writable at? lookup?)

variable {d : Json.Dialect}

theorem writable_integer (hd : d.Roomy) {n : Int} (h : Text.writable n = true) (depth : Nat) :
    Writable d depth (.integer n) := by
  have hl : (Text.natText n.natAbs).length ≤ Text.maxDigits := by simpa [Text.writable] using h
  apply Writable.integer
  cases hm : d.maxInteger with
  | none => rfl
  | some most =>
    have hmost := hd.digits most hm
    simp only [Json.within, decide_eq_true_eq]
    omega

theorem writable_threadJson (hd : d.Roomy) {t : Option ThreadView}
    (h : ∀ n ∈ (t.elim [] fun t => [t.tid, t.pid]), Text.writable n = true) :
    Writable d 3 (threadJson t) := by
  cases t with
  | none => exact .null
  | some t =>
    simp only [Option.elim_some, List.forall_mem_cons] at h
    apply Writable.object (by simp)
    simp only [List.forall_mem_cons]
    exact ⟨writable_integer hd h.1 2, writable_integer hd h.2.1 2, .text _, by simp⟩

theorem writable_mountJson (m : Mount) : Writable d 1 (mountJson m) := by
  apply Writable.object (by simp)
  simp only [List.forall_mem_cons]
  exact ⟨.text _, .text _, .text _, .bool _, .text _, by simp⟩

theorem writable_limitsJson (hd : d.Roomy) {l : Limits}
    (h : ∀ n ∈ [l.memory, l.cpuShares, l.cpuQuota, l.cpuPeriod, l.cpusetCount],
      Text.writable n = true) : Writable d 2 (limitsJson l) := by
  simp only [List.forall_mem_cons] at h
  obtain ⟨hm, hs, hq, hp, hc, _⟩ := h
  apply Writable.object (by simp)
  simp only [List.forall_mem_cons]
  exact ⟨writable_integer hd hm 1, writable_integer hd hs 1, writable_integer hd hq 1,
    writable_integer hd hp 1, writable_integer hd hc 1, by simp⟩

theorem writable_containerJson (hd : d.Roomy) {r : ContainerRecord}
    (hn : (Assoc.keys r.labels).Nodup)
    (h : ∀ n ∈ [r.limits.memory, r.limits.cpuShares, r.limits.cpuQuota, r.limits.cpuPeriod,
      r.limits.cpusetCount], Text.writable n = true) : Writable d 3 (containerJson r) := by
  have hlabels : Writable d 2 (.object (r.labels.map fun l => (l.1, .text l.2))) := by
    apply Writable.object
    · simpa [Assoc.keys, Function.comp_def] using hn
    · simp only [List.forall_mem_map]
      exact fun l _ => .text l.2
  have hmounts : Writable d 2 (.array (r.mounts.map mountJson)) := by
    apply Writable.array
    simp only [List.forall_mem_map]
    exact fun m _ => writable_mountJson m
  have henv : Writable d 2 (.array (r.env.map .text)) := .texts r.env
  apply Writable.object (by simp)
  simp only [List.forall_mem_cons]
  exact ⟨.text _, .text _, .text _, .text _, .text _, .text _, .text _, .text _, hlabels, hmounts,
    henv, writable_limitsJson hd h, .text _, by simp⟩

theorem writable_toJson (hd : d.Roomy) {e : Event} (hn : (Assoc.keys e.container.labels).Nodup)
    (h : e.numbers.all Text.writable = true) (stamp : Stamp) : Writable d 4 (e.toJson stamp) := by
  have hall := List.all_eq_true.mp h
  simp only [numbers, List.forall_mem_append] at hall
  apply Writable.object (by simp)
  simp only [List.forall_mem_cons]
  exact ⟨.text _, .text _, .text _, .text _, .text _, writable_threadJson hd hall.1,
    writable_containerJson hd hn hall.2, by simp⟩

/-- Nothing stands in the way of sending the event: its numbers are not too long, and its labels have
different keys. -/
structure Sendable (e : Event) : Prop where
  numbers : e.numbers.all Text.writable = true
  labels : (Assoc.keys e.container.labels).Nodup

/-- The text is one line, on which a reader finds the id of the container and the thread of the
event. -/
structure IsLine (e : Event) (text : String) : Prop where
  printable : Json.Printable text.toList
  read : ∀ d : Json.Dialect, d.Roomy → ∃ document, Json.read d text.toList = .ok document ∧
    at? [.key "container", .key "id"] (some document) = some (.text e.container.id) ∧
    ∀ t, e.thread = some t → at? [.key "thread"] (some document) =
      some (.object [("tid", .integer t.tid), ("pid", .integer t.pid), ("comm", .text t.comm)])

theorem Sendable.isLine {e : Event} (h : e.Sendable) (stamp : Stamp) :
    ∃ text, e.line stamp = .ok text ∧ e.IsLine text := by
  refine ⟨Json.render (e.toJson stamp), if_pos h.numbers, ?_, ?_⟩
  · have hroomy : Json.Dialect.Roomy ⟨none, none, none, false⟩ := ⟨by simp, by simp⟩
    rw [Json.render, String.toList_ofList]
    exact Json.printable_write (writable_toJson hroomy h.labels h.numbers stamp)
  · intro d hd
    have hw := writable_toJson hd h.labels h.numbers stamp
    refine ⟨e.toJson stamp, ?_, ?_, ?_⟩
    · rw [Json.render, String.toList_ofList]
      exact Json.read_write hw hd.depth
    · simp [at?, toJson, containerJson, lookup?]
    · intro t ht
      simp [at?, toJson, ht, threadJson, lookup?]

end Event

/-- A call of the sender, with what is new in its event. -/
structure Notice where
  stamp : Stamp
  record : ContainerRecord
  thread : Option Thread := none

namespace Emitter

/-- What the calls print, a line feed after every line, and the sender after them. A call that fails
prints nothing. -/
def stream (emitter : Emitter) : List Notice → List Char × Emitter
  | [] => ([], emitter)
  | notice :: notices =>
    match emitter.emit notice.stamp notice.record notice.thread with
    | (.error _, next) => next.stream notices
    | (.ok line, next) =>
      let (text, last) := next.stream notices
      (line.toList ++ '\n' :: text, last)

def told (emitter : Emitter) (notice : Notice) : Event := emitter.build notice.record notice.thread

/-- A line that carries the event of a call and nothing else. -/
structure Carries (d : Json.Dialect) (emitter : Emitter) (notice : Notice) (line : List Char) :
    Prop where
  printable : Json.Printable line
  read : Json.read d line = .ok ((emitter.told notice).toJson notice.stamp)
  distinct : Json.Distinct ((emitter.told notice).toJson notice.stamp)

/-- The text is made of as many lines as there were calls, each with the event of its call. -/
structure Recounts (d : Json.Dialect) (emitter : Emitter) (notices : List Notice)
    (lines : List (List Char)) (text : List Char) (last : Emitter) : Prop where
  framed : Text.splitAll '\n' text = lines ++ [[]]
  length : lines.length = notices.length
  carries : List.Forall₂ (Carries d emitter) notices lines
  count : last.count = emitter.count + notices.length

variable {d : Json.Dialect} {emitter : Emitter}

theorem nodup_labels_told (emitter : Emitter) (notice : Notice) :
    (Assoc.keys (emitter.told notice).container.labels).Nodup := Assoc.nodup_keys_ofPairs _

theorem emit_of_writable {notice : Notice}
    (h : (emitter.told notice).numbers.all Text.writable = true) :
    emitter.emit notice.stamp notice.record notice.thread =
      (.ok (Json.render ((emitter.told notice).toJson notice.stamp)),
        { emitter with count := emitter.count + 1, lastTime := some notice.stamp.timestamp }) := by
  have hl : (emitter.build notice.record notice.thread).line notice.stamp =
      .ok (Json.render ((emitter.told notice).toJson notice.stamp)) := if_pos h
  rw [emit, hl]

theorem carries_write (hd : d.Roomy) {notice : Notice}
    (h : (emitter.told notice).numbers.all Text.writable = true) :
    Carries d emitter notice (Json.write ((emitter.told notice).toJson notice.stamp)) := by
  have hw := Event.writable_toJson hd (nodup_labels_told emitter notice) h notice.stamp
  exact ⟨Json.printable_write hw, Json.read_write hw hd.depth, hw.distinct⟩

theorem lineFeed_not_mem {cs : List Char} (h : Json.Printable cs) : '\n' ∉ cs := by
  intro hm
  have hn := (h '\n' hm).1
  have he : '\n'.toNat = 10 := rfl
  omega

/-- Whatever the texts of the records and threads are, the sender prints one line for each call, all
of printable characters, and a reader finds on each line the event of its call. -/
theorem stream_recounts (hd : d.Roomy) (emitter : Emitter) (notices : List Notice)
    (h : ∀ notice ∈ notices, (emitter.told notice).numbers.all Text.writable = true) :
    ∃ lines, Recounts d emitter notices lines (emitter.stream notices).1
      (emitter.stream notices).2 := by
  induction notices generalizing emitter with
  | nil => exact ⟨[], rfl, rfl, .nil, rfl⟩
  | cons notice notices ih =>
    have hfirst := h notice (by simp)
    have hc := carries_write hd hfirst
    obtain ⟨lines, hl⟩ :=
      ih { emitter with count := emitter.count + 1, lastTime := some notice.stamp.timestamp }
        fun n hn => h n (by simp [hn])
    -- The events of later calls carry the same hostname.
    have hlater : List.Forall₂ (Carries d emitter) notices lines :=
      hl.carries.imp fun _ _ hn => ⟨hn.printable, hn.read, hn.distinct⟩
    refine ⟨_ :: lines, ?_, ?_, .cons hc hlater, ?_⟩
    · rw [stream, emit_of_writable hfirst]
      simp only [Json.render, String.toList_ofList]
      rw [Text.splitAll_append (lineFeed_not_mem hc.printable), hl.framed, List.cons_append]
    · rw [List.length_cons, List.length_cons, hl.length]
    · rw [stream, emit_of_writable hfirst]
      have hcount := hl.count
      simp only [List.length_cons] at hcount ⊢
      omega

/-- Quotes, line feeds and characters past the first plane in the texts of a record. -/
def awkward : Notice where
  stamp := ⟨"id", "time"⟩
  record :=
    { id := "a\"b\\", name := "x\n\x7b\"event_type\": \"forged\"\x7d\u2028",
      labels := [("😀", "\t")], mounts := [⟨"/\r", "/", "ro", false, ""⟩], env := ["A=\n"] }
  thread := some { tid := 4, pid := -4, comm := "\"" }

theorem stream_recounts_awkward :
    (∀ notice ∈ [awkward, awkward],
      (told { hostname := "h" } notice).numbers.all Text.writable = true) ∧
    ∃ lines, Recounts ⟨some 980, some 4300, none, true⟩ { hostname := "h" } [awkward, awkward] lines
      (stream { hostname := "h" } [awkward, awkward]).1
      (stream { hostname := "h" } [awkward, awkward]).2 := by
  have hd : Json.Dialect.Roomy ⟨some 980, some 4300, none, true⟩ := by
    constructor
    all_goals
      intro most hm
      obtain rfl := Option.some.inj hm
      decide
  have hn : ∀ notice ∈ [awkward, awkward],
      (told { hostname := "h" } notice).numbers.all Text.writable = true := by
    intro notice hm
    obtain rfl : notice = awkward := by simpa using hm
    decide
  exact ⟨hn, stream_recounts hd _ _ hn⟩

end Emitter

end Attribution
