import Attribution.Container.Normalize
import Attribution.Proofs.Container.Spec
import Attribution.Proofs.Json.Writing
import Attribution.Proofs.Text.Utf8

namespace Attribution

open Json (AgreeOff at?)

namespace RuntimeSpec

def Reads (blob : List UInt8) (j : Json) : Prop :=
  ∃ cs, Utf8.decode blob = .ok cs ∧ Json.read dialect cs = .ok j

theorem parse_of_reads {blob : List UInt8} {members : List (String × Json)}
    (h : Reads blob (.object members)) : parse blob = (ofMembers members, false) := by
  obtain ⟨cs, hd, hr⟩ := h
  have hne : blob ≠ [] := by
    rintro rfl
    obtain rfl : [] = cs := by simpa [Utf8.decode, Utf8.decodeFrom] using hd
    cases hr
  rw [parse, if_neg hne, hd]
  simp only [ofText?, hr]

/-- Bytes that write no object count as none. -/
theorem parse_of_not_reads {blob : List UInt8} (h : ∀ members, ¬Reads blob (.object members)) :
    (parse blob).1 = {} := by
  unfold parse
  split
  next => rfl
  next =>
    split
    next => rfl
    next cs hd =>
      split
      next => rfl
      next spec hs =>
        unfold ofText? at hs
        split at hs
        next members hr => exact absurd ⟨cs, hd, hr⟩ (h members)
        next => simp at hs

end RuntimeSpec

namespace ContainerRecord

open RuntimeSpec

/-- The record of the container with another specification. -/
def withSpec (container : Wire.Container) (id : String) (labelMax : Int)
    (spec : Option Wire.TypedValue) : ContainerRecord :=
  ofContainer { container with spec } id labelMax

def bytes (spec : Option Wire.TypedValue) : List UInt8 := (spec.map (·.value)).getD []

/-- Two specifications that are the same but for what stands in a place. -/
def DifferAt (place : SpecPlace) (spec spec' : Option Wire.TypedValue) (j j' : Option Json) :
    Prop :=
  ∃ m m', Reads (bytes spec) (.object m) ∧ Reads (bytes spec') (.object m') ∧
    AgreeOff place.path (some (.object m)) (some (.object m')) ∧
      at? place.path (some (.object m)) = j ∧ at? place.path (some (.object m')) = j'

/-- What specifications do to the records made with them. -/
structure FaultsStayLocal (record : Option Wire.TypedValue → ContainerRecord) : Prop where
  /-- Whatever the specification is, only mounts and environment are taken from it. -/
  supplementary : ∀ spec spec', { record spec' with mounts := [], env := [] } =
    { record spec with mounts := [], env := [] }
  /-- A specification that is no object in JSON counts as none. -/
  unread : ∀ spec, (∀ m, ¬Reads (bytes spec) (.object m)) → record spec = record none
  /-- Each place decides about its own part of the record. -/
  confined : ∀ place spec spec' j j', DifferAt place spec spec' j j' →
    place.hide (record spec') = place.hide (record spec)
  /-- A value of another form than expected, null among them, counts as a missing one. -/
  unfit : ∀ place spec spec' j, place.Unfit j → DifferAt place spec spec' (some j) none →
    record spec' = record spec
  /-- An item that is no text counts as none where texts are listed. -/
  skipped : ∀ place spec spec' before j after, place.IsTexts → (∀ s, j ≠ .text s) →
    DifferAt place spec spec' (some (.array (before ++ j :: after)))
      (some (.array (before ++ after))) → record spec' = record spec

theorem withSpec_eq (container : Wire.Container) (id : String) (labelMax : Int)
    (spec : Option Wire.TypedValue) :
    withSpec container id labelMax spec =
      fill (withSpec container id labelMax none) (parse (bytes spec)).1 := by
  cases spec with
  | none => rfl
  | some spec => rfl

theorem faultsStayLocal (container : Wire.Container) (id : String) (labelMax : Int) :
    FaultsStayLocal (withSpec container id labelMax) where
  supplementary spec spec' := by rw [withSpec_eq, withSpec_eq _ _ _ spec, fill, fill]
  unread spec h := by rw [withSpec_eq, parse_of_not_reads h]; rfl
  confined place spec spec' j j' := by
    rintro ⟨m, m', hr, hr', ha, _, _⟩
    rw [withSpec_eq, withSpec_eq _ _ _ spec, parse_of_reads hr, parse_of_reads hr']
    exact hide_fill_congr ha _
  unfit place spec spec' j hu := by
    rintro ⟨m, m', hr, hr', ha, hj, hj'⟩
    have hs : ofMembers m' = ofMembers m := by
      apply ofMembers_of_alike ha
      rw [hj, hj']
      exact SpecPlace.alike_of_unfit hu
    rw [withSpec_eq, withSpec_eq _ _ _ spec, parse_of_reads hr, parse_of_reads hr', hs]
  skipped place spec spec' before j after hp ht := by
    rintro ⟨m, m', hr, hr', ha, hj, hj'⟩
    have hs : ofMembers m' = ofMembers m := by
      apply ofMembers_of_alike ha
      rw [hj, hj']
      exact SpecPlace.alike_of_not_text hp before after ht
    rw [withSpec_eq, withSpec_eq _ _ _ spec, parse_of_reads hr, parse_of_reads hr', hs]

/-- The specification that writes a document. -/
def written (members : List (String × Json)) : Option Wire.TypedValue :=
  some { value := Utf8.encode (Json.write (.object members)) }

theorem reads_written {members : List (String × Json)}
    (h : Json.Writable dialect 2 (.object members)) :
    Reads (bytes (written members)) (.object members) := by
  refine ⟨_, Utf8.decode_encode _, Json.read_write h ?_⟩
  intro most hm
  obtain rfl := Option.some.inj hm
  decide

def bareDocument : List (String × Json) := [("mounts", .array [.integer 7])]

/-- A process that is null is as good as none, and what stands for the propagation decides about
nothing else. -/
theorem faultsStayLocal_process_linux :
    withSpec {} "" 0 (written bareDocument) =
        withSpec {} "" 0 (written (("process", .null) :: bareDocument)) ∧
      SpecPlace.linux.hide (withSpec {} "" 0 (written (bareDocument ++ [("linux", .integer 1)]))) =
        SpecPlace.linux.hide (withSpec {} "" 0 (written bareDocument)) := by
  have h := faultsStayLocal {} "" 0
  have hentry : Json.Writable dialect 1 (.array [.integer 7]) := by
    apply Json.Writable.array
    simp only [List.forall_mem_cons]
    exact ⟨.integer (by decide), by simp⟩
  have hbare : Reads (bytes (written bareDocument)) (.object bareDocument) := by
    apply reads_written (.object (by decide) _)
    simpa [bareDocument] using hentry
  have hnull : Reads (bytes (written (("process", .null) :: bareDocument)))
      (.object (("process", .null) :: bareDocument)) := by
    apply reads_written (.object (by decide) _)
    simpa [bareDocument] using ⟨.null, hentry⟩
  have hlinux : Reads (bytes (written (bareDocument ++ [("linux", .integer 1)])))
      (.object (bareDocument ++ [("linux", .integer 1)])) := by
    apply reads_written (.object (by decide) _)
    simpa [bareDocument] using ⟨hentry, .integer (by decide)⟩
  have hremove := Json.agreeOff_remove (("process", .null) :: bareDocument) "process"
  have hset := Json.agreeOff_set bareDocument "linux" (.integer 1)
  have hprocess : DifferAt .process (written (("process", .null) :: bareDocument))
      (written bareDocument) (some .null) none := ⟨_, _, hnull, hbare, hremove, rfl, rfl⟩
  have hplace : DifferAt .linux (written bareDocument)
      (written (bareDocument ++ [("linux", .integer 1)])) none (some (.integer 1)) :=
    ⟨_, _, hbare, hlinux, hset, rfl, rfl⟩
  constructor
  · exact h.unfit .process _ _ .null (by simp [SpecPlace.Unfit]) hprocess
  · exact h.confined .linux _ _ _ _ hplace

end ContainerRecord
end Attribution
