import Attribution.Files.Access

namespace Attribution

/-- A path that can be handed to the file system. -/
def IsPath (path : String) : Prop := '\x00' ∉ path.toList

instance (path : String) : Decidable (IsPath path) :=
  inferInstanceAs (Decidable ('\x00' ∉ path.toList))

theorem isPath_append {a b : String} : IsPath (a ++ b) ↔ IsPath a ∧ IsPath b := by
  simp [IsPath, not_or]

theorem isPath_joinPath {base name : String} (hb : IsPath base) (hn : IsPath name) :
    IsPath (joinPath base name) := by
  have hslash : IsPath "/" := by decide
  unfold joinPath
  split
  · exact hn
  · split
    · exact isPath_append.mpr ⟨hb, hn⟩
    · exact isPath_append.mpr ⟨isPath_append.mpr ⟨hb, hslash⟩, hn⟩

namespace FileSystem

variable {fs : FileSystem} {path : String} {α : Type}

/-- What the file holds, if it can be read, is UTF-8. -/
def Legible (fs : FileSystem) (path : String) : Prop :=
  ∀ bytes, fs.read path = .ok bytes → ∃ cs, Utf8.decode bytes = .ok cs

/-- The text of a file as far as there is one. -/
def shownText? (fs : FileSystem) (path : String) : Option String :=
  (fs.read path).toOption.bind fun bytes =>
    (Utf8.decode bytes).toOption.map fun cs => String.ofList (Text.unifyNewlines cs)

theorem guarded_of_isPath (h : IsPath path) (use : Except AccessError α) :
    guarded path use = .ok use := by
  simp only [IsPath] at h
  simp [guarded, h]

theorem readText?_of_legible (hp : IsPath path) (h : fs.Legible path) :
    fs.readText? path = .ok (fs.shownText? path) := by
  rw [readText?, guarded_of_isPath hp, shownText?]
  cases hr : fs.read path with
  | error e => rfl
  | ok bytes =>
    obtain ⟨cs, hd⟩ := h bytes hr
    simp [Except.toOption, hd]

theorem isPath_of_readText? {text : Option String} (h : fs.readText? path = .ok text) :
    IsPath path := by
  intro hn
  have hg : guarded path (fs.read path) = .error .nullInPath := by simp [guarded, hn]
  simp [readText?, hg] at h

theorem readText?_eq_ok {text : Option String} (h : fs.readText? path = .ok text) :
    fs.Legible path ∧ text = fs.shownText? path := by
  have hp := isPath_of_readText? h
  have hlegible : fs.Legible path := by
    intro bytes hr
    rw [readText?, guarded_of_isPath hp, hr] at h
    cases hd : Utf8.decode bytes with
    | error e => simp [hd] at h
    | ok cs => exact ⟨cs, rfl⟩
  rw [readText?_of_legible hp hlegible] at h
  exact ⟨hlegible, (Except.ok.inj h).symm⟩

/-- Whether there is a socket at the path. -/
def hasSocket (fs : FileSystem) (path : String) : Bool := isThere (fs.isSocket path)

theorem leadsToSocket_of_isPath (h : IsPath path) :
    fs.leadsToSocket path = .ok (fs.hasSocket path) := by
  rw [leadsToSocket, guarded_of_isPath h]
  rfl

theorem leadsToSocket_of_not_isPath (h : ¬IsPath path) :
    fs.leadsToSocket path = .error .nullInPath := by
  have hz : '\x00' ∈ path.toList := Decidable.not_not.mp h
  rw [leadsToSocket, guarded, if_pos (by simpa using hz)]
  rfl

end FileSystem
end Attribution
