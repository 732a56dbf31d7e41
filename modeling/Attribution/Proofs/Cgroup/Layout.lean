import Attribution.Proofs.Cgroup.Pattern

namespace Attribution

/-- The short form of an id of a container. -/
def IsShortId (s : String) : Prop :=
  ∃ id, isContainerId id = true ∧ s = String.ofList (id.take shortIdLength)

theorem IsShortId.length {s : String} (h : IsShortId s) : s.length = shortIdLength := by
  obtain ⟨id, hid, rfl⟩ := h
  have hl : id.length = idLength := by simpa using (Bool.and_eq_true_iff.mp hid).1
  rw [String.length_ofList, List.length_take, hl]
  decide

theorem IsShortId.ne_empty {s : String} (h : IsShortId s) : s ≠ "" := by
  rintro rfl
  exact absurd h.length (by decide)

theorem IsShortId.isHexDigit_of_mem {s : String} (h : IsShortId s) {c : Char}
    (hc : c ∈ s.toList) : isHexDigit c = true := by
  obtain ⟨id, hid, rfl⟩ := h
  rw [String.toList_ofList] at hc
  exact List.all_eq_true.mp (Bool.and_eq_true_iff.mp hid).2 c (List.mem_of_mem_take hc)

/-- The path ends in an id, right behind the directory of the default namespace. -/
def ShowsId (path : String) (id : List Char) : Prop :=
  isContainerId id = true ∧ ∃ before, path.toList = before ++ "/default/".toList ++ id

namespace CgroupLayout

theorem shortId?_containerdLayout {path : String} {before id : List Char}
    (h : isContainerId id = true) (hp : path.toList = before ++ "/default/".toList ++ id) :
    shortId? containerdLayout path = some (String.ofList (id.take shortIdLength)) := by
  have hd : CgroupPattern.Delimited ⟨"/default/", ""⟩ := by decide
  have hi : CgroupPattern.id? ⟨"/default/", ""⟩ path.toList = some id :=
    CgroupPattern.id?_of_accepts hd (.atEnd before rfl h hp)
  simp [shortId?, containerdLayout, hi]

theorem showsId_of_id? {path id : List Char}
    (h : CgroupPattern.id? ⟨"/default/", ""⟩ path = some id) :
    isContainerId id = true ∧ ∃ before, path = before ++ "/default/".toList ++ id := by
  cases CgroupPattern.accepts_of_id? h with
  | atEnd before _ hid hpath => exact ⟨hid, before, hpath⟩
  | between _ _ ha => exact (ha rfl).elim

theorem showsId_of_shortId? {path s : String} (h : shortId? containerdLayout path = some s) :
    ∃ id, ShowsId path id ∧ s = String.ofList (id.take shortIdLength) := by
  obtain ⟨id, hi, rfl⟩ := Option.map_eq_some_iff.mp h
  obtain ⟨pattern, hm, hp⟩ := List.exists_of_findSome?_eq_some hi
  obtain rfl := List.mem_singleton.mp hm
  exact ⟨id, showsId_of_id? hp, rfl⟩

theorem shortId?_eq_none_of_not_showsId {path : String} (h : ∀ id, ¬ShowsId path id) :
    shortId? containerdLayout path = none := by
  rw [Option.eq_none_iff_forall_not_mem]
  intro s hs
  obtain ⟨id, hid, _⟩ := showsId_of_shortId? hs
  exact h id hid

theorem match?_eq_none_of_not_showsId {memberships : List Membership}
    (h : ∀ m ∈ memberships, ∀ id, ¬ShowsId m.path id) :
    match? containerdLayout memberships = none := by
  rw [match?, List.findSome?_eq_none_iff]
  intro m hm
  rw [shortId?_eq_none_of_not_showsId (h m hm), Option.map_none]

theorem match?_of_showsId {memberships earlier later : List Membership} {m : Membership}
    {id : List Char} (hc : memberships = earlier ++ m :: later)
    (he : ∀ e ∈ earlier, ∀ id, ¬ShowsId e.path id) (hm : ShowsId m.path id) :
    match? containerdLayout memberships =
      some ⟨String.ofList (id.take shortIdLength), m.path⟩ := by
  obtain ⟨hid, before, hp⟩ := hm
  have hs := shortId?_containerdLayout hid hp
  rw [match?, List.findSome?_eq_some_iff]
  refine ⟨earlier, m, later, hc, by rw [hs]; rfl, ?_⟩
  intro e hmem
  rw [shortId?_eq_none_of_not_showsId (he e hmem), Option.map_none]

theorem shows_of_match? {memberships : List Membership} {found : CgroupMatch}
    (h : match? containerdLayout memberships = some found) :
    ∃ earlier m later id, memberships = earlier ++ m :: later ∧
      (∀ e ∈ earlier, ∀ id, ¬ShowsId e.path id) ∧ ShowsId m.path id ∧
      found = ⟨String.ofList (id.take shortIdLength), m.path⟩ := by
  obtain ⟨earlier, m, later, hc, hm, he⟩ := List.findSome?_eq_some_iff.mp h
  obtain ⟨s, hs, rfl⟩ := Option.map_eq_some_iff.mp hm
  obtain ⟨id, hid, rfl⟩ := showsId_of_shortId? hs
  refine ⟨earlier, m, later, id, hc, ?_, hid, rfl⟩
  intro e hmem digits hd
  obtain ⟨hi, before, hp⟩ := hd
  simpa [shortId?_containerdLayout hi hp] using he e hmem

theorem shortId?_of_match? {layout : CgroupLayout} {memberships : List Membership}
    {found : CgroupMatch} (h : match? layout memberships = some found) :
    shortId? layout found.path = some found.containerId := by
  obtain ⟨m, _, hm⟩ := List.exists_of_findSome?_eq_some h
  obtain ⟨id, hs, rfl⟩ := Option.map_eq_some_iff.mp hm
  exact hs

theorem isShortId_of_shortId? {layout : CgroupLayout} {path s : String}
    (h : shortId? layout path = some s) : IsShortId s := by
  obtain ⟨id, hi, rfl⟩ := Option.map_eq_some_iff.mp h
  obtain ⟨pattern, _, hp⟩ := List.exists_of_findSome?_eq_some hi
  exact ⟨id, (Option.filter_eq_some_iff.mp hp).2, rfl⟩

theorem isShortId_of_match? {layout : CgroupLayout} {memberships : List Membership}
    {found : CgroupMatch} (h : match? layout memberships = some found) :
    IsShortId found.containerId :=
  isShortId_of_shortId? (shortId?_of_match? h)

/-- The id of a match under a path that ends in an id is the short form of that id. -/
theorem containerId_of_match? {memberships : List Membership} {found : CgroupMatch}
    {before id : List Char} (hm : match? containerdLayout memberships = some found)
    (h : isContainerId id = true) (hp : found.path.toList = before ++ "/default/".toList ++ id) :
    found.containerId = String.ofList (id.take shortIdLength) := by
  have hs := shortId?_of_match? hm
  rw [shortId?_containerdLayout h hp] at hs
  exact (Option.some.inj hs).symm

end CgroupLayout
end Attribution
