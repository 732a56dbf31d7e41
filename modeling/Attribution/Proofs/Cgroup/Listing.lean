import Attribution.Proofs.Cgroup.Membership
import Attribution.Proofs.Text.Cut
import Attribution.Proofs.Text.Lines

namespace Attribution

/-- What a field of a line may hold: no colon and no blank. -/
def IsField (s : String) : Prop := ∀ c ∈ s.toList, c ≠ ':' ∧ Text.isBlank c = false

instance (s : String) : Decidable (IsField s) := List.decidableBAll _ _

/-- The text does not end in a blank. -/
def EndsBare (s : String) : Prop := ∀ c ∈ s.toList.getLast?, Text.isBlank c = false

instance (s : String) : Decidable (EndsBare s) := Option.decidableForallMem _

/-- A hierarchy and the path of a process in it. The unified one has no controllers. -/
structure Hierarchy where
  number : String
  controllers : List String
  path : String
  number_field : IsField number := by decide
  controllers_field : ∀ name ∈ controllers,
    name ≠ "" ∧ IsField name ∧ ',' ∉ name.toList := by decide
  path_oneLine : Text.OneLine path.toList := by decide
  path_endsBare : EndsBare path := by decide
  deriving DecidableEq

namespace Hierarchy

def text (h : Hierarchy) : String :=
  h.number ++ ":" ++ ",".intercalate h.controllers ++ ":" ++ h.path

/-- The name of a controller, of a named hierarchy the name behind the mark. -/
def nameOf (controller : String) : String :=
  String.ofList ((controller.toList.dropPrefix? "name=".toList).getD controller.toList)

/-- The names under which the path is found; that of the unified hierarchy is empty. -/
def subsystems (h : Hierarchy) : List String :=
  if h.controllers = [] then [""] else h.controllers.map nameOf

def memberships (h : Hierarchy) : List Membership :=
  h.subsystems.map fun subsystem => ⟨subsystem, h.path⟩

/-- The controllers as they are written. -/
def controllerText (h : Hierarchy) : List Char := [','].intercalate (h.controllers.map String.toList)

variable {h : Hierarchy}

theorem toList_text :
    h.text.toList = h.number.toList ++ ':' :: (h.controllerText ++ ':' :: h.path.toList) := by
  simp [text, controllerText, String.toList_intercalate]

theorem of_mem_controllerText {c : Char} (hc : c ∈ h.controllerText) :
    c ≠ ':' ∧ Text.isBlank c = false := by
  rcases Text.mem_intercalate hc with rfl | ⟨part, hp, hm⟩
  · decide
  · obtain ⟨name, hn, rfl⟩ := List.mem_map.mp hp
    exact (h.controllers_field name hn).2.1 c hm

theorem oneLine_text : Text.OneLine h.text.toList := by
  have hcolon : Text.isLineBoundary ':' = false := by decide
  intro c hc
  simp only [toList_text, List.mem_append, List.mem_cons] at hc
  rcases hc with hc | rfl | hc | rfl | hc
  · exact Text.isLineBoundary_of_not_blank (h.number_field c hc).2
  · exact hcolon
  · exact Text.isLineBoundary_of_not_blank (of_mem_controllerText hc).2
  · exact hcolon
  · exact h.path_oneLine c hc

theorem strip_text : Text.strip h.text.toList = h.text.toList := by
  have hcolon : ∀ c ∈ some ':', Text.isBlank c = false := by
    rintro c ⟨⟩
    rfl
  have hnumber : ∀ c ∈ h.number.toList.head?, Text.isBlank c = false := fun c hc =>
    (h.number_field c (List.mem_of_mem_head? hc)).2
  apply Text.trim_of_ends
  · rw [toList_text]
    exact Text.forall_head?_append hnumber hcolon
  · have hs : h.text.toList = (h.number.toList ++ ':' :: h.controllerText ++ [':']) ++ h.path.toList := by
      simp [toList_text]
    rw [hs]
    refine Text.forall_getLast?_append ?_ h.path_endsBare
    rwa [List.getLast?_append_of_ne_nil _ (by simp)]

theorem hasFields_text : Membership.HasFields h.text.toList h.controllerText h.path.toList :=
  ⟨h.number.toList, fun hm => (h.number_field ':' hm).1 rfl, fun hm => (of_mem_controllerText hm).1 rfl,
    strip_text.trans toList_text⟩

theorem plainName_toList (controller : String) :
    String.ofList (Membership.plainName controller.toList) = nameOf controller := by
  rw [Membership.plainName, Text.dropWord?_eq_dropPrefix?, nameOf]

theorem nameOf_marked (name : String) : nameOf ("name=" ++ name) = name := by
  have hd : ("name=" ++ name).toList.dropPrefix? "name=".toList = some name.toList :=
    List.dropPrefix?_eq_some_iff.mpr ⟨"name=".toList, String.toList_append, beq_self_eq_true _⟩
  rw [nameOf, hd, Option.getD_some, String.ofList_toList]

theorem nameOf_of_not_marked {controller : String} (hm : ¬"name=".toList <+: controller.toList) :
    nameOf controller = controller := by
  have hd : controller.toList.dropPrefix? "name=".toList = none := by
    rw [Option.eq_none_iff_forall_ne_some]
    intro rest hd
    obtain ⟨mark, hs, hmark⟩ := List.dropPrefix?_eq_some_iff.mp hd
    exact hm (eq_of_beq hmark ▸ ⟨rest, hs.symm⟩)
  rw [nameOf, hd, Option.getD_none, String.ofList_toList]

theorem splitAll_controllerText (hne : h.controllers ≠ []) :
    Text.splitAll ',' h.controllerText = h.controllers.map String.toList := by
  refine Text.splitAll_intercalate (by simpa using hne) fun part hp => ?_
  obtain ⟨name, hn, rfl⟩ := List.mem_map.mp hp
  exact fun hm => (h.controllers_field name hn).2.2 hm

theorem controllerText_eq_nil_iff : h.controllerText = [] ↔ h.controllers = [] := by
  constructor
  · intro ht
    by_contra hne
    have hs := splitAll_controllerText hne
    rw [ht] at hs
    have hm : [] ∈ h.controllers.map String.toList := by
      rw [← hs]
      exact List.mem_cons_self
    obtain ⟨name, hn, he⟩ := List.mem_map.mp hm
    exact (h.controllers_field name hn).1 (String.toList_eq_nil_iff.mp he)
  · intro hc
    rw [controllerText, hc]
    rfl

theorem ofFields_controllerText :
    Membership.ofFields h.controllerText h.path.toList = h.memberships := by
  unfold Membership.ofFields memberships subsystems
  by_cases hc : h.controllers = []
  · rw [if_pos (controllerText_eq_nil_iff.mpr hc), if_pos hc]
    simp
  · rw [if_neg (mt controllerText_eq_nil_iff.mp hc), if_neg hc, splitAll_controllerText hc]
    simp [plainName_toList]

theorem ofLine_text : Membership.ofLine h.text.toList = h.memberships := by
  rw [Membership.ofLine, Membership.fields?_eq_some_iff.mpr hasFields_text]
  exact ofFields_controllerText

end Hierarchy

/-- A line of a listing: a hierarchy, or a text without three fields. -/
inductive Row
  | hierarchy (h : Hierarchy)
  | other (line : String) (oneLine : Text.OneLine line.toList) (few : line.toList.count ':' < 2)

/-- A line with what ends it. -/
structure EndedRow where
  row : Row
  ending : String
  endsLine : Text.EndsLine ending.toList

namespace Row

def text : Row → String
  | hierarchy h => h.text
  | other line _ _ => line

def hierarchy? : Row → Option Hierarchy
  | hierarchy h => some h
  | other _ _ _ => none

theorem oneLine_text (row : Row) : Text.OneLine row.text.toList := by
  cases row with
  | hierarchy h => exact Hierarchy.oneLine_text
  | other line oneLine => exact oneLine

theorem ofLine_text (row : Row) :
    Membership.ofLine row.text.toList = row.hierarchy?.toList.flatMap Hierarchy.memberships := by
  cases row with
  | hierarchy h => simpa [text, hierarchy?] using Hierarchy.ofLine_text
  | other line _ few => exact Membership.ofLine_of_count few

end Row

/-- Lines and, behind the last end of a line, possibly one more. -/
structure Listing where
  rows : List EndedRow
  last : Option Row := none

namespace Listing

def lastText (listing : Listing) : String := (listing.last.map Row.text).getD ""

def text (listing : Listing) : String :=
  String.join (listing.rows.map fun r => r.row.text ++ r.ending) ++ listing.lastText

/-- The hierarchies of all lines in order. -/
def hierarchies (listing : Listing) : List Hierarchy :=
  listing.rows.filterMap (fun r => r.row.hierarchy?) ++ (listing.last.bind Row.hierarchy?).toList

theorem toList_text (listing : Listing) : listing.text.toList =
    (listing.rows.flatMap fun r => r.row.text.toList ++ r.ending.toList) ++
      listing.lastText.toList := by
  simp [text, String.toList_join, List.flatMap_map]

theorem oneLine_lastText (listing : Listing) : Text.OneLine listing.lastText.toList := by
  unfold lastText
  cases listing.last with
  | none => decide
  | some row => exact row.oneLine_text

theorem ofLine_lastText (listing : Listing) : Membership.ofLine listing.lastText.toList =
    (listing.last.bind Row.hierarchy?).toList.flatMap Hierarchy.memberships := by
  unfold lastText
  cases listing.last with
  | none => rfl
  | some row => exact row.ofLine_text

theorem parse_text (listing : Listing) :
    Membership.parse listing.text = listing.hierarchies.flatMap Hierarchy.memberships := by
  rw [Membership.parse, toList_text, Text.flatMap_splitLines rfl
    (fun r _ => ⟨r.row.oneLine_text, r.endsLine⟩) listing.oneLine_lastText, hierarchies,
    List.flatMap_append, List.filterMap_eq_flatMap_toList, List.flatMap_assoc, ofLine_lastText]
  simp only [Row.ofLine_text]

/-- What is written of hierarchies is read again and nothing else: a membership for each controller, by
its name without the mark of a named hierarchy, and one for each unified hierarchy. -/
theorem parse_undoes_listing (listing : Listing) :
    Membership.parse listing.text = listing.hierarchies.flatMap Hierarchy.memberships ∧
      (∀ name, Hierarchy.nameOf ("name=" ++ name) = name) ∧
      ∀ controller : String, ¬"name=".toList <+: controller.toList →
        Hierarchy.nameOf controller = controller :=
  ⟨listing.parse_text, Hierarchy.nameOf_marked, fun _ => Hierarchy.nameOf_of_not_marked⟩

/-- The return and the feed around an empty line are one boundary. -/
example : Membership.parse "4:cpu,name=a:/b: c\r\n1:name=name=d:\u2028no:fields\x0b0::/e" =
    [⟨"cpu", "/b: c"⟩, ⟨"a", "/b: c"⟩, ⟨"name=d", ""⟩, ⟨"", "/e"⟩] := by
  decide +kernel

end Listing
end Attribution
