import Attribution.Proofs.Event.Cleaning

namespace Attribution

namespace Json

/-- Every text of a value, the names of members included, has the property. -/
inductive Texts (p : String → Prop) : Json → Prop where
  | null : Texts p .null
  | bool (b : Bool) : Texts p (.bool b)
  | integer (n : Int) : Texts p (.integer n)
  | text {s : String} (h : p s) : Texts p (.text s)
  | array {items : List Json} (h : ∀ i ∈ items, Texts p i) : Texts p (.array items)
  | object {members : List (String × Json)} (hn : ∀ m ∈ members, p m.1)
      (h : ∀ m ∈ members, Texts p m.2) : Texts p (.object members)

/-- An object of these members and no others, in this order, each of them with a value as its place
asks for it. -/
def HasMembers (places : List (String × (Json → Prop))) (value : Json) : Prop :=
  ∃ members, value = .object members ∧
    List.Forall₂ (fun place m => m.1 = place.1 ∧ place.2 m.2) places members

/-- An array with one item for each original, in the same order. -/
def HasItems {α : Type} (shows : α → Json → Prop) (originals : List α) (value : Json) : Prop :=
  ∃ items, value = .array items ∧ List.Forall₂ shows originals items

end Json

namespace Event

open Json (HasItems HasMembers Texts)

/-- The value is the original text, cleaned. -/
def ShowsText (most : Nat) (original : String) (value : Json) : Prop :=
  ∃ s, value = .text s ∧ Cleaned most original s

def ShowsMount (original : Mount) : Json → Prop :=
  HasMembers [("source", ShowsText 512 original.source),
    ("destination", ShowsText 512 original.destination), ("mode", ShowsText 256 original.mode),
    ("rw", (· = .bool original.readWrite)), ("propagation", ShowsText 256 original.propagation)]

def ShowsLabels (original : Assoc String String) (value : Json) : Prop :=
  ∃ labels, value = .object (labels.map fun l => (l.1, .text l.2)) ∧ CleanedLabels original labels

def ShowsLimits (l : Limits) : Json → Prop :=
  HasMembers [("memory", (· = .integer l.memory)), ("cpu_shares", (· = .integer l.cpuShares)),
    ("cpu_quota", (· = .integer l.cpuQuota)), ("cpu_period", (· = .integer l.cpuPeriod)),
    ("cpuset_cpu_count", (· = .integer l.cpusetCount))]

/-- The thread of an event, null if it has none. -/
def ShowsThread : Option Thread → Json → Prop
  | none => (· = .null)
  | some t => HasMembers [("tid", (· = .integer t.tid)), ("pid", (· = .integer t.pid)),
      ("comm", ShowsText 256 t.comm)]

def ShowsRecord (original : ContainerRecord) : Json → Prop :=
  HasMembers [("id", ShowsText 256 original.id), ("full_id", ShowsText 256 original.fullId),
    ("name", ShowsText 256 original.name), ("type", (· = .text original.type.name)),
    ("image", ShowsText 256 original.image), ("image_repo", ShowsText 512 original.imageRepo),
    ("image_tag", ShowsText 256 original.imageTag),
    ("image_digest", ShowsText 256 original.imageDigest), ("labels", ShowsLabels original.labels),
    ("mounts", HasItems ShowsMount original.mounts), ("env", HasItems (ShowsText 1024) original.env),
    ("limits", ShowsLimits original.limits),
    ("lookup_state", (· = .text original.lookupState.name))]

/-- An event of the moment, about this thread and this container. -/
def Shows (stamp : Stamp) (hostname : String) (thread container : Json) : Json → Prop :=
  HasMembers [("event_id", (· = .text stamp.eventId)), ("schema_version", (· = .text "1.0")),
    ("timestamp", (· = .text stamp.timestamp)), ("event_type", (· = .text "container_added")),
    ("hostname", ShowsText 256 hostname), ("thread", (· = thread)), ("container", (· = container))]

theorem showsText {most : Nat} {original s : String} (h : Cleaned most original s) :
    ShowsText most original (.text s) := ⟨s, rfl, h⟩

theorem showsMount {original m : Mount} (h : CleanedMount original m) :
    ShowsMount original (mountJson m) := by
  refine ⟨_, rfl, ?_⟩
  simp only [List.forall₂_cons, List.forall₂_nil_left_iff, and_true, true_and]
  exact ⟨showsText h.source, showsText h.destination, showsText h.mode,
    congrArg Json.bool h.readWrite, showsText h.propagation⟩

theorem showsLimits (l : Limits) : ShowsLimits l (limitsJson l) := by
  refine ⟨_, rfl, ?_⟩
  simp only [List.forall₂_cons, List.forall₂_nil_left_iff, and_self]

theorem showsThread {original : Option Thread} {t : Option ThreadView}
    (h : Option.Rel CleanedThread original t) : ShowsThread original (threadJson t) := by
  cases h with
  | none => rfl
  | some h =>
    obtain ⟨htid, hpid⟩ := h.kept
    refine ⟨_, rfl, ?_⟩
    simp only [List.forall₂_cons, List.forall₂_nil_left_iff, and_true, true_and]
    exact ⟨congrArg Json.integer htid, congrArg Json.integer hpid, showsText h.comm⟩

theorem showsRecord {original r : ContainerRecord} (h : CleanedRecord original r) :
    ShowsRecord original (containerJson r) := by
  obtain ⟨htype, hlimits, hstate⟩ := h.kept
  have hmounts : HasItems ShowsMount original.mounts (.array (r.mounts.map mountJson)) := by
    refine ⟨_, rfl, ?_⟩
    rw [List.forall₂_map_right_iff]
    exact h.mounts.imp fun _ _ => showsMount
  have henv : HasItems (ShowsText 1024) original.env (.array (r.env.map .text)) := by
    refine ⟨_, rfl, ?_⟩
    rw [List.forall₂_map_right_iff]
    exact h.env.imp fun _ _ => showsText
  refine ⟨_, rfl, ?_⟩
  simp only [List.forall₂_cons, List.forall₂_nil_left_iff, and_true, true_and, htype, hlimits,
    hstate]
  exact ⟨showsText h.id, showsText h.fullId, showsText h.name, showsText h.image,
    showsText h.imageRepo, showsText h.imageTag, showsText h.imageDigest, ⟨r.labels, rfl, h.labels⟩,
    hmounts, henv, showsLimits original.limits⟩

theorem shows_toJson (stamp : Stamp) {hostname : String} {e : Event}
    (h : Cleaned 256 hostname e.hostname) :
    Shows stamp hostname (threadJson e.thread) (containerJson e.container) (e.toJson stamp) := by
  refine ⟨_, rfl, ?_⟩
  simp only [List.forall₂_cons, List.forall₂_nil_left_iff, and_true, true_and]
  exact ⟨rfl, rfl, showsText h⟩

theorem exists_mem_of_forall₂ {α β : Type} {r : α → β → Prop} {as : List α} {bs : List β} {b : β}
    (h : List.Forall₂ r as bs) (hb : b ∈ bs) : ∃ a ∈ as, r a b := by
  induction h with
  | nil => simp at hb
  | cons hr _ ih =>
    rcases List.mem_cons.mp hb with rfl | hb
    · exact ⟨_, by simp, hr⟩
    · obtain ⟨a, ha, hr⟩ := ih hb
      exact ⟨a, by simp [ha], hr⟩

/-- The texts that every event has: names of members, of types and of states, and its schema. -/
def ownTexts : List String :=
  ["event_id", "schema_version", "timestamp", "event_type", "hostname", "thread", "container",
    "tid", "pid", "comm", "source", "destination", "mode", "rw", "propagation", "memory",
    "cpu_shares", "cpu_quota", "cpu_period", "cpuset_cpu_count", "id", "full_id", "name", "type",
    "image", "image_repo", "image_tag", "image_digest", "labels", "mounts", "env", "limits",
    "lookup_state", schemaVersion, eventType] ++
    ContainerType.all.map ContainerType.name ++ LookupState.all.map LookupState.name

/-- A text of an event: one that every event has, one of its stamp, or a clean one of at most 1024
characters. -/
def Harmless (stamp : Stamp) (s : String) : Prop :=
  ownTexts.contains s = true ∨ s = stamp.eventId ∨ s = stamp.timestamp ∨
    (∀ c ∈ s.toList, ¬IsControl c) ∧ s.length ≤ 1024

theorem Harmless.of_cleaned {most : Nat} {original s : String} (h : Cleaned most original s)
    (hm : most ≤ 1024) (stamp : Stamp) : Harmless stamp s :=
  .inr (.inr (.inr ⟨h.clean, h.short.trans hm⟩))

theorem harmless_names {members : List (String × Json)}
    (h : (members.map (·.1)).all ownTexts.contains = true) (stamp : Stamp) :
    ∀ m ∈ members, Harmless stamp m.1 := by
  intro m hm
  exact .inl (List.all_eq_true.mp h m.1 (List.mem_map_of_mem hm))

theorem texts_mountJson {original m : Mount} (h : CleanedMount original m) (stamp : Stamp) :
    Texts (Harmless stamp) (mountJson m) := by
  apply Texts.object (harmless_names rfl stamp)
  simp only [List.forall_mem_cons]
  exact ⟨.text (.of_cleaned h.source (by decide) _),
    .text (.of_cleaned h.destination (by decide) _), .text (.of_cleaned h.mode (by decide) _), .bool _,
    .text (.of_cleaned h.propagation (by decide) _), by simp⟩

theorem texts_limitsJson (l : Limits) (stamp : Stamp) : Texts (Harmless stamp) (limitsJson l) := by
  apply Texts.object (harmless_names rfl stamp)
  simp only [List.forall_mem_cons]
  exact ⟨.integer _, .integer _, .integer _, .integer _, .integer _, by simp⟩

theorem texts_threadJson {original : Option Thread} {t : Option ThreadView}
    (h : Option.Rel CleanedThread original t) (stamp : Stamp) :
    Texts (Harmless stamp) (threadJson t) := by
  cases h with
  | none => exact .null
  | some h =>
    apply Texts.object (harmless_names rfl stamp)
    simp only [List.forall_mem_cons]
    exact ⟨.integer _, .integer _, .text (.of_cleaned h.comm (by decide) _), by simp⟩

theorem texts_containerJson {original r : ContainerRecord} (h : CleanedRecord original r)
    (stamp : Stamp) : Texts (Harmless stamp) (containerJson r) := by
  have hlabels : Texts (Harmless stamp) (.object (r.labels.map fun l => (l.1, .text l.2))) := by
    have hall : ∀ l ∈ r.labels, Harmless stamp l.1 ∧ Harmless stamp l.2 := by
      intro l hl
      obtain ⟨_, _, _, _, hkey, hvalue, _⟩ := h.labels.known l hl
      exact ⟨.of_cleaned hkey (by decide) _, .of_cleaned hvalue (by decide) _⟩
    apply Texts.object
    · simp only [List.forall_mem_map]
      exact fun l hl => (hall l hl).1
    · simp only [List.forall_mem_map]
      exact fun l hl => .text (hall l hl).2
  have hmounts : Texts (Harmless stamp) (.array (r.mounts.map mountJson)) := by
    apply Texts.array
    simp only [List.forall_mem_map]
    intro m hm
    obtain ⟨original, _, hc⟩ := exists_mem_of_forall₂ h.mounts hm
    exact texts_mountJson hc stamp
  have henv : Texts (Harmless stamp) (.array (r.env.map .text)) := by
    apply Texts.array
    simp only [List.forall_mem_map]
    intro s hs
    obtain ⟨original, _, hc⟩ := exists_mem_of_forall₂ h.env hs
    exact .text (.of_cleaned hc (by decide) stamp)
  have htype : Harmless stamp r.type.name := by
    left
    cases r.type
    all_goals rfl
  have hstate : Harmless stamp r.lookupState.name := by
    left
    cases r.lookupState
    all_goals rfl
  apply Texts.object (harmless_names rfl stamp)
  simp only [List.forall_mem_cons]
  exact ⟨.text (.of_cleaned h.id (by decide) _), .text (.of_cleaned h.fullId (by decide) _),
    .text (.of_cleaned h.name (by decide) _), .text htype,
    .text (.of_cleaned h.image (by decide) _), .text (.of_cleaned h.imageRepo (by decide) _),
    .text (.of_cleaned h.imageTag (by decide) _), .text (.of_cleaned h.imageDigest (by decide) _),
    hlabels, hmounts, henv, texts_limitsJson r.limits stamp, .text hstate, by simp⟩

/-- The thread with the command that an event tells of it. -/
def retold (thread : Option Thread) (told : Option ThreadView) : Option Thread :=
  thread.bind fun t => told.map fun v => { t with comm := v.comm }

/-- An event with nothing in it but cleaned texts, numbers as they were and texts of its own. The
event made from what it tells is the same. -/
structure Sanitized (hostname : String) (record : ContainerRecord) (thread : Option Thread)
    (e : Event) : Prop where
  host : Cleaned 256 hostname e.hostname
  told : Option.Rel CleanedThread thread e.thread
  container : CleanedRecord record e.container
  texts : ∀ stamp, Texts (Harmless stamp) (e.toJson stamp)
  stable : ∀ other, (build other e.container (retold thread e.thread)).thread = e.thread ∧
    (build other e.container (retold thread e.thread)).container = e.container
  /-- Member by member, it shows what it was made from. What is made from it shows the same thread
  and the same container. -/
  shown : ∃ threadValue recordValue, ShowsThread thread threadValue ∧
    ShowsRecord record recordValue ∧
    (∀ stamp, Shows stamp hostname threadValue recordValue (e.toJson stamp)) ∧
    ∀ other stamp, Shows stamp other threadValue recordValue
      ((build other e.container (retold thread e.thread)).toJson stamp)

theorem build_retold (hostname other : String) (record : ContainerRecord)
    (thread : Option Thread) :
    let e := build hostname record thread
    (build other e.container (retold thread e.thread)).thread = e.thread ∧
      (build other e.container (retold thread e.thread)).container = e.container := by
  refine ⟨?_, cleanRecord_cleanRecord record⟩
  cases thread with
  | none => rfl
  | some t =>
    have hs := sanitize_sanitize 256 t.comm
    exact congrArg (fun comm => some (ThreadView.mk t.tid t.pid comm)) hs

theorem sanitized_build (hostname : String) (record : ContainerRecord) (thread : Option Thread) :
    Sanitized hostname record thread (build hostname record thread) := by
  have hhost := cleaned_sanitize 256 hostname
  have hcontainer := cleanedRecord record
  have hthread : Option.Rel CleanedThread thread (thread.map viewThread) := by
    cases thread with
    | none => exact .none
    | some t => exact .some ⟨cleaned_sanitize 256 _, rfl, rfl⟩
  have hstable := fun other => build_retold hostname other record thread
  refine ⟨hhost, hthread, hcontainer, ?_, hstable, _, _, showsThread hthread,
    showsRecord hcontainer, fun stamp => shows_toJson stamp hhost, ?_⟩
  · intro stamp
    apply Texts.object (harmless_names rfl stamp)
    simp only [List.forall_mem_cons]
    exact ⟨.text (.inr (.inl rfl)), .text (.inl rfl), .text (.inr (.inr (.inl rfl))),
      .text (.inl rfl),
      .text (.of_cleaned hhost (by decide) _), texts_threadJson hthread stamp,
      texts_containerJson hcontainer stamp, by simp⟩
  · intro other stamp
    obtain ⟨ht, hr⟩ := hstable other
    let again := build other (build hostname record thread).container
      (retold thread (build hostname record thread).thread)
    have hother : Cleaned 256 other again.hostname := cleaned_sanitize 256 other
    have hshown := shows_toJson stamp hother
    rwa [ht, hr] at hshown

end Event
end Attribution
