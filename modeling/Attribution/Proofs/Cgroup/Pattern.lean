import Attribution.Cgroup.Layout
import Attribution.Proofs.Text.Cut

namespace Attribution

namespace CgroupPattern

/-- The path has the id where the pattern says. Without a word after it the id ends the path; else the
words before and after it stand at their last places. -/
inductive Accepts (pattern : CgroupPattern) (path id : List Char) : Prop
  | atEnd (front : List Char) (hafter : pattern.after = "") (hid : isContainerId id = true)
      (hpath : path = front ++ pattern.before.toList ++ id)
  | between (front back : List Char) (hafter : pattern.after ≠ "") (hid : isContainerId id = true)
      (hpath : path = front ++ pattern.before.toList ++ id ++ pattern.after.toList ++ back)
      (hbefore : Text.NoneBehind pattern.before.toList path front.length)
      (hlast : Text.NoneBehind pattern.after.toList path
        (front ++ pattern.before.toList ++ id).length)

/-- The word before the id has a character that cannot stand in an id. -/
def Delimited (pattern : CgroupPattern) : Prop :=
  ∃ c ∈ pattern.before.toList, isHexDigit c = false

instance (pattern : CgroupPattern) : Decidable pattern.Delimited := List.decidableBEx _ _

variable {pattern : CgroupPattern} {path id : List Char}

theorem between?_eq_some_iff : pattern.between? path = some id ↔
    ∃ rest, Text.afterLast? pattern.before.toList path = some rest ∧
      ((pattern.after = "" ∧ rest = id) ∨
        (pattern.after ≠ "" ∧ Text.beforeLast? pattern.after.toList rest = some id)) := by
  unfold between?
  cases Text.afterLast? pattern.before.toList path with
  | none => simp
  | some rest =>
    by_cases ha : pattern.after = ""
    · simp [ha]
    · simp [ha]

theorem accepts_of_id? (h : pattern.id? path = some id) : pattern.Accepts path id := by
  obtain ⟨hb, hid⟩ := Option.filter_eq_some_iff.mp h
  obtain ⟨rest, hr, ⟨ha, rfl⟩ | ⟨ha, hrest⟩⟩ := between?_eq_some_iff.mp hb
  · obtain ⟨front, hpath⟩ := Text.exists_of_afterLast? hr
    exact .atEnd front ha hid hpath
  · obtain ⟨front, hpath, hbefore⟩ := Text.afterLast?_eq_some_iff.mp hr
    obtain ⟨back, rfl, hlast⟩ := Text.beforeLast?_eq_some_iff.mp hrest
    refine .between front back ha hid (by simp [hpath]) hbefore ?_
    rw [hpath, List.length_append, Text.noneBehind_append]
    exact hlast

theorem id?_of_accepts (hd : pattern.Delimited) (h : pattern.Accepts path id) :
    pattern.id? path = some id := by
  suffices hb : pattern.between? path = some id ∧ isContainerId id = true by
    exact Option.filter_eq_some_iff.mpr hb
  rw [between?_eq_some_iff]
  cases h with
  | atEnd front ha hid hpath =>
    obtain ⟨c, hc, hx⟩ := hd
    have hnot : c ∉ id := fun hm => by
      simp [List.all_eq_true.mp (Bool.and_eq_true_iff.mp hid).2 c hm] at hx
    subst hpath
    exact ⟨⟨id, Text.afterLast?_append front hc hnot, .inl ⟨ha, rfl⟩⟩, hid⟩
  | between front back ha hid hpath hbefore hlast =>
    have hcut : path = front ++ pattern.before.toList ++ (id ++ pattern.after.toList ++ back) := by
      simp [hpath]
    rw [hcut, List.length_append, Text.noneBehind_append] at hlast
    refine ⟨⟨_, Text.afterLast?_eq_some_iff.mpr ⟨front, hcut, hbefore⟩, .inr ⟨ha, ?_⟩⟩, hid⟩
    exact Text.beforeLast?_eq_some_iff.mpr ⟨back, rfl, hlast⟩

theorem id?_eq_some_iff (hd : pattern.Delimited) :
    pattern.id? path = some id ↔ pattern.Accepts path id :=
  ⟨accepts_of_id?, id?_of_accepts hd⟩

theorem id?_eq_none_iff (hd : pattern.Delimited) :
    pattern.id? path = none ↔ ∀ id, ¬pattern.Accepts path id := by
  simp only [Option.eq_none_iff_forall_ne_some, ne_eq, id?_eq_some_iff hd]

theorem Accepts.unique {id' : List Char} (h : pattern.Accepts path id)
    (h' : pattern.Accepts path id') : id = id' := by
  cases h with
  | atEnd front ha hid hpath =>
    cases h' with
    | atEnd front' _ hid' hpath' =>
      have hlength : id.length = id'.length := by
        rw [isContainerId, Bool.and_eq_true_iff, beq_iff_eq] at hid hid'
        rw [hid.1, hid'.1]
      exact (List.append_inj' (hpath.symm.trans hpath') hlength).2
    | between _ _ ha' => exact (ha' ha).elim
  | between front back ha hid hpath hbefore hlast =>
    cases h' with
    | atEnd _ ha' => exact (ha ha').elim
    | between front' back' _ hid' hpath' hbefore' hlast' =>
      have hs : path = front ++ pattern.before.toList ++ (id ++ pattern.after.toList ++ back) := by
        simp [hpath]
      have hs' : path = front' ++ pattern.before.toList ++ (id' ++ pattern.after.toList ++ back') := by
        simp [hpath']
      have hends := (hlast.unique hlast' hpath hpath').1
      have hstarts := (hbefore.unique hbefore' hs hs').1
      rw [hstarts] at hends
      exact List.append_cancel_left hends

end CgroupPattern

namespace CgroupLayout

/-- The short form of the id with which the first pattern that accepts the path accepts it. -/
def Shows (layout : CgroupLayout) (path s : String) : Prop :=
  ∃ earlier pattern later id, layout = earlier ++ pattern :: later ∧
    (∀ e ∈ earlier, ∀ digits, ¬e.Accepts path.toList digits) ∧
    pattern.Accepts path.toList id ∧ s = String.ofList (id.take shortIdLength)

/-- A pattern of the layout accepts the path. -/
def Accepts (layout : CgroupLayout) (path : String) : Prop :=
  ∃ pattern ∈ layout, ∃ id, pattern.Accepts path.toList id

/-- Paths and memberships are matched as the patterns of the layout accept them, each pattern with one
id at most. -/
structure ByAcceptance (layout : CgroupLayout) : Prop where
  unique : ∀ pattern ∈ layout, ∀ path id id', pattern.Accepts path id → pattern.Accepts path id' →
    id = id'
  shortId : ∀ path s, shortId? layout path = some s ↔ Shows layout path s
  noShortId : ∀ path, shortId? layout path = none ↔ ¬Accepts layout path
  first : ∀ memberships found, match? layout memberships = some found ↔
    ∃ earlier m later, memberships = earlier ++ m :: later ∧
      (∀ e ∈ earlier, ¬Accepts layout e.path) ∧ Shows layout m.path found.containerId ∧
      found.path = m.path
  none : ∀ memberships, match? layout memberships = none ↔ ∀ m ∈ memberships, ¬Accepts layout m.path

variable {layout : CgroupLayout}

theorem shortId?_eq_some_iff (hd : ∀ pattern ∈ layout, pattern.Delimited) {path s : String} :
    shortId? layout path = some s ↔ Shows layout path s := by
  unfold shortId? Shows
  rw [Option.map_eq_some_iff]
  constructor
  · rintro ⟨id, hi, rfl⟩
    obtain ⟨earlier, pattern, later, rfl, hp, he⟩ := List.findSome?_eq_some_iff.mp hi
    refine ⟨earlier, pattern, later, id, rfl, fun e hm => ?_, CgroupPattern.accepts_of_id? hp, rfl⟩
    exact (CgroupPattern.id?_eq_none_iff (hd e (by simp [hm]))).mp (he e hm)
  · rintro ⟨earlier, pattern, later, id, rfl, he, hp, rfl⟩
    refine ⟨id, List.findSome?_eq_some_iff.mpr ⟨earlier, pattern, later, rfl, ?_, fun e hm => ?_⟩, rfl⟩
    · exact CgroupPattern.id?_of_accepts (hd pattern (by simp)) hp
    · exact (CgroupPattern.id?_eq_none_iff (hd e (by simp [hm]))).mpr (he e hm)

theorem shortId?_eq_none_iff (hd : ∀ pattern ∈ layout, pattern.Delimited) {path : String} :
    shortId? layout path = none ↔ ¬Accepts layout path := by
  have hsilent : ¬Accepts layout path ↔
      ∀ pattern ∈ layout, ∀ id, ¬pattern.Accepts path.toList id := by
    simp only [Accepts, not_exists, not_and]
  rw [hsilent, shortId?, Option.map_eq_none_iff, List.findSome?_eq_none_iff]
  exact forall₂_congr fun pattern hp => CgroupPattern.id?_eq_none_iff (hd pattern hp)

/-- A layout whose patterns are delimited matches by acceptance. -/
theorem match_by_acceptance (layout : CgroupLayout)
    (hd : ∀ pattern ∈ layout, pattern.Delimited) : ByAcceptance layout where
  unique _ _ _ _ _ h h' := h.unique h'
  shortId _ _ := shortId?_eq_some_iff hd
  noShortId _ := shortId?_eq_none_iff hd
  first memberships found := by
    rw [match?, List.findSome?_eq_some_iff]
    simp only [Option.map_eq_none_iff, shortId?_eq_none_iff hd, Option.map_eq_some_iff,
      shortId?_eq_some_iff hd]
    constructor
    · rintro ⟨earlier, m, later, hc, ⟨s, hs, rfl⟩, he⟩
      exact ⟨earlier, m, later, hc, he, hs, rfl⟩
    · rintro ⟨earlier, m, later, hc, he, hs, hp⟩
      exact ⟨earlier, m, later, hc, ⟨found.containerId, hs, by rw [← hp]⟩, he⟩
  none memberships := by
    rw [match?, List.findSome?_eq_none_iff]
    simp only [Option.map_eq_none_iff, shortId?_eq_none_iff hd]

end CgroupLayout

namespace ScopedLayout

open CgroupLayout

def layout : CgroupLayout := [⟨"/default/", ""⟩, ⟨"/docker-", ".scope"⟩]

/-- The words of both patterns occur, those of the second one twice. -/
def path : String :=
  "/default/docker-old.scope/docker-0123456789abcdef0123456789abcdef0123456789abcdef0123456789abcdef.scope"

/-- The last of two scopes is the one that counts. -/
theorem last_scope_shows : (∀ pattern ∈ layout, pattern.Delimited) ∧
    Shows layout path "0123456789ab" ∧ ¬Accepts layout "/default/docker-old.scope" ∧
    match? layout [⟨"cpu", "/default/docker-old.scope"⟩, ⟨"memory", path⟩] =
      some ⟨"0123456789ab", path⟩ := by
  have hd : ∀ pattern ∈ layout, pattern.Delimited := by decide +kernel
  have h := match_by_acceptance layout hd
  have hshows : Shows layout path "0123456789ab" := (h.shortId path _).mp (by decide +kernel)
  have hnone : ¬Accepts layout "/default/docker-old.scope" := (h.noShortId _).mp (by decide +kernel)
  refine ⟨hd, hshows, hnone, (h.first _ _).mpr ?_⟩
  exact ⟨[⟨"cpu", "/default/docker-old.scope"⟩], ⟨"memory", path⟩, [], rfl, by simpa using hnone,
    hshows, rfl⟩

end ScopedLayout
end Attribution
