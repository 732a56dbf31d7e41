import Attribution.Assoc
import Attribution.Proofs.Files.Access
import Attribution.Proofs.Text.Utf8
import Attribution.Proofs.Text.Written

namespace Attribution.FileSystem

variable {α β : Type} {fs : FileSystem} {path : String} {paths : List String} {fault : Fault}

theorem nullInPath_of_legible (hl : fs.Legible path) (h : fs.readText? path = .error fault) :
    fault = .nullInPath := by
  by_cases hp : IsPath path
  · rw [readText?_of_legible hp hl] at h
    cases h
  · have hg : guarded path (fs.read path) = .error .nullInPath := by
      have hn : '\x00' ∈ path.toList := Decidable.not_not.mp hp
      simp [guarded, hn]
    rw [readText?, hg] at h
    exact (Except.error.inj h).symm

theorem notUtf8_of_isPath (hp : IsPath path) (h : fs.readText? path = .error fault) :
    ∃ bytes e, fs.read path = .ok bytes ∧ Utf8.decode bytes = .error e ∧ fault = .notUtf8 e := by
  rw [readText?, guarded_of_isPath hp] at h
  cases hr : fs.read path with
  | error e => simp [hr] at h
  | ok bytes =>
    cases hd : Utf8.decode bytes with
    | ok cs => simp [hr, hd] at h
    | error e =>
      simp only [hr, hd] at h
      exact ⟨bytes, e, rfl, hd, (Except.error.inj h).symm⟩

/-- The file holds the text as a line. -/
def HoldsLine (fs : FileSystem) (path : String) (text : List Char) : Prop :=
  fs.read path = .ok (Utf8.encode (text ++ ['\n']))

/-- The file cannot be opened. -/
def Hidden (fs : FileSystem) (path : String) : Prop := ∀ bytes, fs.read path ≠ .ok bytes

theorem readText?_of_holdsLine {text : List Char} (hp : IsPath path) (h : fs.HoldsLine path text)
    (hr : '\r' ∉ text) : fs.readText? path = .ok (some (String.ofList (text ++ ['\n']))) := by
  have hu : Text.unifyNewlines (text ++ ['\n']) = text ++ ['\n'] :=
    Text.unifyNewlines_of_notMem (by simpa using hr)
  unfold HoldsLine at h
  rw [readText?, guarded_of_isPath hp, h]
  simp only [Utf8.decode_encode, hu]

theorem readText?_of_hidden (hp : IsPath path) (h : fs.Hidden path) : fs.readText? path = .ok none := by
  rw [readText?, guarded_of_isPath hp]
  cases hr : fs.read path with
  | error e => rfl
  | ok bytes => exact (h bytes hr).elim

/-- A file system that holds some texts and nothing else. -/
def ofTexts (texts : Assoc String String) : FileSystem where
  isSocket _ := .ok false
  read path := ((texts.find? path).map fun text => .ok (Utf8.encode text.toList)).getD (.error .missing)
  list _ := .error .notDirectory

theorem legible_ofTexts (texts : Assoc String String) (path : String) : (ofTexts texts).Legible path := by
  intro bytes hr
  cases hf : texts.find? path with
  | none => simp [ofTexts, hf] at hr
  | some text =>
    simp only [ofTexts, hf, Option.map_some, Option.getD_some, Except.ok.injEq] at hr
    exact ⟨text.toList, hr ▸ Utf8.decode_encode text.toList⟩

theorem hidden_ofTexts {texts : Assoc String String} (h : texts.find? path = none) :
    (ofTexts texts).Hidden path := by
  intro bytes hr
  simp [ofTexts, h] at hr

/-- Opens the files in order, until one of them is no text. -/
def openAll (fs : FileSystem) : List String → Except Fault Unit
  | [] => .ok ()
  | path :: paths => do
    let _ ← fs.readText? path
    openAll fs paths

theorem openAll_append (paths more : List String) :
    fs.openAll (paths ++ more) = fs.openAll paths >>= fun _ => fs.openAll more := by
  induction paths with
  | nil => rfl
  | cons path paths ih =>
    rw [List.cons_append, openAll, openAll, ih]
    cases fs.readText? path <;> rfl

theorem openAll_eq_ok_iff : fs.openAll paths = .ok () ↔ ∀ p ∈ paths, IsPath p ∧ fs.Legible p := by
  induction paths with
  | nil => simp [openAll]
  | cons path paths ih =>
    rw [openAll, List.forall_mem_cons, ← ih]
    constructor
    · intro h
      cases ht : fs.readText? path with
      | error fault => simp [ht, bind, Except.bind] at h
      | ok text =>
        rw [ht] at h
        exact ⟨⟨isPath_of_readText? ht, (readText?_eq_ok ht).1⟩, h⟩
    · rintro ⟨⟨hp, hl⟩, h⟩
      rw [readText?_of_legible hp hl]
      exact h

/-- What stops the opening is the first file that is no text. -/
theorem openAll_eq_error_iff : fs.openAll paths = .error fault ↔
    ∃ before path after, paths = before ++ path :: after ∧
      (∀ p ∈ before, IsPath p ∧ fs.Legible p) ∧ fs.readText? path = .error fault := by
  constructor
  · intro h
    induction paths with
    | nil => cases h
    | cons path paths ih =>
      rw [openAll] at h
      cases ht : fs.readText? path with
      | error e =>
        simp only [ht, bind, Except.bind, Except.error.injEq] at h
        subst h
        exact ⟨[], path, paths, rfl, by simp, ht⟩
      | ok text =>
        simp only [ht, bind, Except.bind] at h
        obtain ⟨before, stop, after, rfl, hb, hs⟩ := ih h
        refine ⟨path :: before, stop, after, rfl, ?_, hs⟩
        exact List.forall_mem_cons.mpr ⟨⟨isPath_of_readText? ht, (readText?_eq_ok ht).1⟩, hb⟩
  · rintro ⟨before, path, after, rfl, hb, hs⟩
    rw [openAll_append, openAll_eq_ok_iff.mpr hb, openAll, hs]
    rfl

/-- A reading that opens the files in order and, unless one of them stops it, returns the value. -/
def Opens (fs : FileSystem) (paths : List String) (value : α) (reading : Except Fault α) : Prop :=
  reading = (fs.openAll paths).map fun _ => value

namespace Opens

variable {value : α} {reading : Except Fault α}

theorem ok (value : α) : Opens fs [] value (.ok value) := rfl

theorem text (path : String) : Opens fs [path] (fs.shownText? path) (fs.readText? path) := by
  unfold Opens openAll
  cases ht : fs.readText? path with
  | error fault => rfl
  | ok text => exact congrArg Except.ok (readText?_eq_ok ht).2

theorem bind {more : List String} {next : β} {f : α → Except Fault β}
    (h : Opens fs paths value reading) (hf : Opens fs more next (f value)) :
    Opens fs (paths ++ more) next (reading >>= f) := by
  unfold Opens at h hf ⊢
  rw [h, openAll_append]
  cases fs.openAll paths with
  | error fault => rfl
  | ok _ => exact hf

theorem bind_ok {next : β} {f : α → Except Fault β} (h : Opens fs paths value reading)
    (hf : f value = .ok next) : Opens fs paths next (reading >>= f) := by
  have hb : Opens fs (paths ++ []) next (reading >>= f) := h.bind (hf ▸ .ok next)
  rwa [List.append_nil] at hb

theorem map (h : Opens fs paths value reading) (f : α → β) :
    Opens fs paths (f value) (reading.map f) := by
  unfold Opens at h ⊢
  rw [h]
  cases fs.openAll paths <;> rfl

theorem eq_ok_iff {a : α} (h : Opens fs paths value reading) :
    reading = .ok a ↔ (∀ p ∈ paths, IsPath p ∧ fs.Legible p) ∧ a = value := by
  rw [h, ← openAll_eq_ok_iff]
  cases fs.openAll paths <;> simp [Except.map, eq_comm]

theorem eq_error_iff (h : Opens fs paths value reading) : reading = .error fault ↔
    ∃ before path after, paths = before ++ path :: after ∧
      (∀ p ∈ before, IsPath p ∧ fs.Legible p) ∧ fs.readText? path = .error fault := by
  rw [h, ← openAll_eq_error_iff]
  cases fs.openAll paths <;> simp [Except.map]

end Opens
end Attribution.FileSystem
