import Attribution.Cgroup.Layout
import Attribution.Proofs.Text.Part
import Attribution.Proofs.Text.Written

namespace Attribution

namespace Membership

/-- The line, without the blanks around it, has the controllers and the path as the second and the
third of three fields. -/
def HasFields (line controllers path : List Char) : Prop :=
  ∃ number, ':' ∉ number ∧ ':' ∉ controllers ∧
    Text.strip line = number ++ ':' :: (controllers ++ ':' :: path)

/-- The line has three fields, the third one of which is the path. -/
def HasPath (line path : List Char) : Prop := ∃ controllers, HasFields line controllers path

/-- The paths of those lines that have three fields. -/
inductive HavePaths : List (List Char) → List (List Char) → Prop
  | nil : HavePaths [] []
  | path {line path : List Char} {lines paths : List (List Char)} (h : HasPath line path)
      (later : HavePaths lines paths) : HavePaths (line :: lines) (path :: paths)
  | skip {line : List Char} {lines paths : List (List Char)} (h : ∀ path, ¬HasPath line path)
      (later : HavePaths lines paths) : HavePaths (line :: lines) paths

variable {line controllers path : List Char} {lines paths : List (List Char)}

theorem fields?_eq_some_iff :
    fields? line = some (controllers, path) ↔ HasFields line controllers path := by
  constructor
  · intro h
    unfold fields? at h
    split at h
    next => cases h
    next number rest hnumber =>
      split at h
      next => cases h
      next first last hcut =>
        obtain ⟨rfl, rfl⟩ := Prod.mk.inj (Option.some.inj h)
        obtain ⟨hn, hs⟩ := Text.cutFirst_eq_some_iff.mp hnumber
        obtain ⟨hc, rfl⟩ := Text.cutFirst_eq_some_iff.mp hcut
        exact ⟨number, hn, hc, hs⟩
  · rintro ⟨number, hn, hc, hs⟩
    simp only [fields?, hs, Text.cutFirst_append hn, Text.cutFirst_append hc]

theorem fields?_eq_none_iff : fields? line = none ↔ ∀ path, ¬HasPath line path := by
  simp only [Option.eq_none_iff_forall_ne_some, Prod.forall, ne_eq, fields?_eq_some_iff, HasPath,
    not_exists]
  exact forall_comm

theorem HasPath.unique {path' : List Char} (h : HasPath line path) (h' : HasPath line path') :
    path = path' := by
  obtain ⟨_, h⟩ := h
  obtain ⟨_, h'⟩ := h'
  rw [← fields?_eq_some_iff] at h h'
  exact (Prod.mk.inj (Option.some.inj (h.symm.trans h'))).2

theorem ofLine_of_count (h : line.count ':' < 2) : ofLine line = [] := by
  have hn : fields? line = none := by
    rw [fields?_eq_none_iff]
    rintro path ⟨controllers, number, _, _, hs⟩
    have hle : (Text.strip line).count ':' ≤ line.count ':' :=
      (Text.infix_trim Text.isBlank line).sublist.count_le ':'
    simp only [hs, List.count_append, List.count_cons_self] at hle
    omega
  rw [ofLine, hn]

theorem ofFields_ne_nil (controllers path : List Char) : ofFields controllers path ≠ [] := by
  unfold ofFields
  split
  · exact List.cons_ne_nil _ _
  · obtain ⟨first, parts, hs, _⟩ := Text.splitAll_eq_cons ',' controllers
    simp [hs]

theorem path_of_mem_ofFields {m : Membership} (h : m ∈ ofFields controllers path) :
    m.path = String.ofList path := by
  unfold ofFields at h
  split at h
  · rw [List.mem_singleton.mp h]
  · obtain ⟨c, _, rfl⟩ := List.mem_map.mp h
    rfl

theorem findSome?_of_forall_eq {α β : Type} {l : List α} {f : α → Option β} {b : Option β}
    (hne : l ≠ []) (h : ∀ a ∈ l, f a = b) : l.findSome? f = b := by
  cases b with
  | none => exact List.findSome?_eq_none_iff.mpr h
  | some b =>
    obtain ⟨a, rest, rfl⟩ := List.exists_cons_of_ne_nil hne
    rw [List.findSome?_cons, h a List.mem_cons_self]

section

variable {α : Type} (f : String → Option α)

/-- What is looked for by paths alone, in a line by its path if it has one. -/
def searchLine? (line : List Char) : Option α :=
  (fields? line).bind fun fields => f (String.ofList fields.2)

theorem searchLine?_of_hasPath (h : HasPath line path) :
    searchLine? f line = f (String.ofList path) := by
  obtain ⟨controllers, h⟩ := h
  rw [searchLine?, fields?_eq_some_iff.mpr h, Option.bind_some]

theorem searchLine?_of_not_hasPath (h : ∀ path, ¬HasPath line path) : searchLine? f line = none := by
  rw [searchLine?, fields?_eq_none_iff.mpr h, Option.bind_none]

theorem searchLine?_eq_none_iff : searchLine? f line = none ↔
    ∀ path, HasPath line path → f (String.ofList path) = none := by
  by_cases hp : ∃ path, HasPath line path
  · obtain ⟨path, hp⟩ := hp
    rw [searchLine?_of_hasPath f hp]
    exact ⟨fun h _ hp' => hp.unique hp' ▸ h, fun h => h path hp⟩
  · have hn := not_exists.mp hp
    simp only [searchLine?_of_not_hasPath f hn, hn, false_imp_iff, implies_true]

theorem searchLine?_eq_some_iff {a : α} : searchLine? f line = some a ↔
    ∃ path, HasPath line path ∧ f (String.ofList path) = some a := by
  by_cases hp : ∃ path, HasPath line path
  · obtain ⟨path, hp⟩ := hp
    rw [searchLine?_of_hasPath f hp]
    refine ⟨fun h => ⟨path, hp, h⟩, ?_⟩
    rintro ⟨path', hp', h⟩
    rwa [hp.unique hp']
  · have hn := not_exists.mp hp
    simp [searchLine?_of_not_hasPath f hn, hn]

/-- However many memberships a line has, a search by paths alone finds its path or none. -/
theorem findSome?_ofLine (line : List Char) :
    (ofLine line).findSome? (fun m => f m.path) = searchLine? f line := by
  unfold ofLine searchLine?
  cases fields? line with
  | none => rfl
  | some fields =>
    refine findSome?_of_forall_eq (ofFields_ne_nil _ _) fun m hm => ?_
    rw [path_of_mem_ofFields hm]
    rfl

theorem findSome?_flatMap_ofLine (lines : List (List Char)) :
    (lines.flatMap ofLine).findSome? (fun m => f m.path) = lines.findSome? (searchLine? f) := by
  induction lines with
  | nil => rfl
  | cons line lines ih =>
    rw [List.flatMap_cons, List.findSome?_append, findSome?_ofLine, ih, List.findSome?_cons]
    cases searchLine? f line <;> rfl

theorem findSome?_searchLine? (h : HavePaths lines paths) :
    lines.findSome? (searchLine? f) = paths.findSome? fun path => f (String.ofList path) := by
  induction h with
  | nil => rfl
  | path hp _ ih =>
    rw [List.findSome?_cons, List.findSome?_cons, searchLine?_of_hasPath f hp, ih]
  | skip hs _ ih => rw [List.findSome?_cons, searchLine?_of_not_hasPath f hs, ih]

end

theorem exists_havePaths (lines : List (List Char)) : ∃ paths, HavePaths lines paths := by
  induction lines with
  | nil => exact ⟨[], .nil⟩
  | cons line lines ih =>
    obtain ⟨paths, h⟩ := ih
    by_cases hp : ∃ path, HasPath line path
    · obtain ⟨path, hp⟩ := hp
      exact ⟨path :: paths, .path hp h⟩
    · exact ⟨paths, .skip (not_exists.mp hp) h⟩

theorem HavePaths.unique {paths' : List (List Char)} (h : HavePaths lines paths)
    (h' : HavePaths lines paths') : paths = paths' := by
  induction h generalizing paths' with
  | nil =>
    cases h'
    rfl
  | path hp _ ih =>
    cases h' with
    | path hp' later => rw [hp.unique hp', ih later]
    | skip hs => exact (hs _ hp).elim
  | skip hs _ ih =>
    cases h' with
    | path hp => exact (hs _ hp).elim
    | skip _ later => exact ih later

end Membership

namespace CgroupLayout

open Attribution.Membership

/-- The match is that of the first line whose path shows an id. -/
def FirstShown (layout : CgroupLayout) (lines : List (List Char)) (found : CgroupMatch) : Prop :=
  ∃ earlier line later path, lines = earlier ++ line :: later ∧
    (∀ e ∈ earlier, ∀ p, HasPath e p → shortId? layout (String.ofList p) = none) ∧
    HasPath line path ∧ shortId? layout (String.ofList path) = some found.containerId ∧
    found.path = String.ofList path

/-- What the memberships in a text are matched with is decided by the paths of its lines. -/
structure DecidedByPaths (layout : CgroupLayout) (text : String) : Prop where
  first : ∀ found, match? layout (parse text) = some found ↔
    FirstShown layout (Text.splitLines text.toList) found
  unmatched : match? layout (parse text) = none ↔ ∀ line ∈ Text.splitLines text.toList, ∀ path,
    HasPath line path → shortId? layout (String.ofList path) = none
  paths : ∃! paths, HavePaths (Text.splitLines text.toList) paths
  samePaths : ∀ text' paths, HavePaths (Text.splitLines text.toList) paths →
    HavePaths (Text.splitLines text'.toList) paths →
    match? layout (parse text) = match? layout (parse text')
  moreLines : ∀ text' earlier line later later' path,
    Text.splitLines text.toList = earlier ++ line :: later →
    Text.splitLines text'.toList = earlier ++ line :: later' →
    HasPath line path → shortId? layout (String.ofList path) ≠ none →
    match? layout (parse text) = match? layout (parse text')

/-- The match of a path that shows an id. -/
def pathMatch? (layout : CgroupLayout) (path : String) : Option CgroupMatch :=
  (shortId? layout path).map fun id => ⟨id, path⟩

theorem match?_parse (layout : CgroupLayout) (text : String) : match? layout (parse text) =
    (Text.splitLines text.toList).findSome? (searchLine? (pathMatch? layout)) :=
  findSome?_flatMap_ofLine (pathMatch? layout) (Text.splitLines text.toList)

theorem firstShown_iff {layout : CgroupLayout} {lines : List (List Char)} {found : CgroupMatch} :
    lines.findSome? (searchLine? (pathMatch? layout)) = some found ↔
      FirstShown layout lines found := by
  simp only [List.findSome?_eq_some_iff, searchLine?_eq_none_iff, searchLine?_eq_some_iff, pathMatch?,
    Option.map_eq_none_iff, Option.map_eq_some_iff]
  constructor
  · rintro ⟨earlier, line, later, hl, ⟨path, hp, s, hs, rfl⟩, he⟩
    exact ⟨earlier, line, later, path, hl, he, hp, hs, rfl⟩
  · rintro ⟨earlier, line, later, path, hl, he, hp, hs, hpath⟩
    exact ⟨earlier, line, later, hl, ⟨path, hp, found.containerId, hs, by rw [← hpath]⟩, he⟩

theorem match_decided_by_paths (layout : CgroupLayout) (text : String) :
    DecidedByPaths layout text where
  first found := by rw [match?_parse, firstShown_iff]
  unmatched := by
    simp only [match?_parse, List.findSome?_eq_none_iff, searchLine?_eq_none_iff, pathMatch?,
      Option.map_eq_none_iff]
  paths := by
    obtain ⟨paths, h⟩ := exists_havePaths (Text.splitLines text.toList)
    exact ⟨paths, h, fun _ h' => h'.unique h⟩
  samePaths text' paths h h' := by
    rw [match?_parse, match?_parse, findSome?_searchLine? _ h, findSome?_searchLine? _ h']
  moreLines text' earlier line later later' path hl hl' hp hs := by
    obtain ⟨s, hs⟩ := Option.ne_none_iff_exists'.mp hs
    have hline : searchLine? (pathMatch? layout) line = some ⟨s, String.ofList path⟩ := by
      rw [searchLine?_of_hasPath _ hp, pathMatch?, hs, Option.map_some]
    simp only [match?_parse, hl, hl', List.findSome?_append, List.findSome?_cons, hline]

end CgroupLayout
end Attribution
