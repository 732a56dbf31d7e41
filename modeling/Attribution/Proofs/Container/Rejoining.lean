import Attribution.Proofs.Container.Image

namespace Attribution.ImageRef

variable {r : ImageRef} {s name : String}

/-- The repository, if there is one, and the name. -/
def path (r : ImageRef) : String := (if r.repo = "" then "" else r.repo ++ "/") ++ r.name

/-- The parts with the marks between them; an empty part has no mark. -/
def text (r : ImageRef) : String := r.path ++ if r.tag = "" then "" else ":" ++ r.tag

/-- Parts in which no mark is left that would have divided them. -/
structure Divided (r : ImageRef) : Prop where
  repo_noColon : ':' ∉ r.repo.toList
  name_noColon : ':' ∉ r.name.toList
  name_noSlash : '/' ∉ r.name.toList

/-- The text of the parts, but that a slash may precede it where there is no repository and a colon
may follow it where there is no tag. -/
def WrittenAs (r : ImageRef) (s : String) : Prop :=
  ∃ front back, s = front ++ r.text ++ back ∧ (front = "" ∨ front = "/" ∧ r.repo = "") ∧
    (back = "" ∨ back = ":" ∧ r.tag = "")

theorem parse_slashed (repo : String) (hr : ':' ∉ repo.toList) (hc : ':' ∉ name.toList)
    (hs : '/' ∉ name.toList) : parse (repo ++ "/" ++ name) = ⟨repo, name, ""⟩ := by
  have hpath : (repo ++ "/" ++ name).toList = repo.toList ++ '/' :: name.toList := by simp
  have hcolon : ':' ∉ repo.toList ++ '/' :: name.toList := by simp [hr, hc]
  simp only [parse, hpath, Text.cutFirst_of_notMem hcolon, Text.cutLast?_append _ hs, Option.getD_none,
    String.ofList_toList, String.ofList_nil]

theorem exists_colon (s : String) :
    ':' ∉ s.toList ∨ ∃ path tag, s = path ++ ":" ++ tag ∧ ':' ∉ path.toList := by
  by_cases hm : ':' ∈ s.toList
  · obtain ⟨path, tag, hs, hpath⟩ := List.eq_append_cons_of_mem hm
    refine .inr ⟨String.ofList path, String.ofList tag, String.toList_injective ?_, by simpa using hpath⟩
    simp [hs]
  · exact .inl hm

theorem exists_slash (s : String) :
    '/' ∉ s.toList ∨ ∃ repo name, s = repo ++ "/" ++ name ∧ '/' ∉ name.toList := by
  by_cases hm : '/' ∈ s.toList
  · -- The last slash is the first one from behind.
    obtain ⟨behind, before, hs, hbehind⟩ := List.eq_append_cons_of_mem (List.mem_reverse.mpr hm)
    have hs' : s.toList = before.reverse ++ '/' :: behind.reverse := by
      rw [← List.reverse_inj, hs]
      simp
    refine .inr ⟨String.ofList before.reverse, String.ofList behind.reverse,
      String.toList_injective ?_, by simpa using hbehind⟩
    simp [hs']
  · exact .inl hm

theorem divided_of_noColon (h : ':' ∉ s.toList) :
    (parse s).Divided ∧ (parse s).tag = "" ∧
      ∃ front, s = front ++ (parse s).path ∧ (front = "" ∨ front = "/" ∧ (parse s).repo = "") := by
  rcases exists_slash s with hs | ⟨repo, name, rfl, hs⟩
  · rw [parse_of_noSlash h hs]
    exact ⟨⟨by simp, h, hs⟩, rfl, "", by simp [path], .inl rfl⟩
  · obtain ⟨hr, hn⟩ : ':' ∉ repo.toList ∧ ':' ∉ name.toList := by
      simpa using h
    rw [parse_slashed repo hr hn hs]
    refine ⟨⟨hr, hn, hs⟩, rfl, ?_⟩
    by_cases hempty : repo = ""
    · exact ⟨"/", by simp [path, hempty], .inr ⟨rfl, hempty⟩⟩
    · exact ⟨"", by simp [path, hempty], .inl rfl⟩

theorem writtenAs_parse (s : String) : (parse s).Divided ∧ (parse s).WrittenAs s := by
  rcases exists_colon s with h | ⟨path, tag, rfl, h⟩
  · obtain ⟨hd, htag, front, hs, hfront⟩ := divided_of_noColon h
    exact ⟨hd, front, "", by simpa [text, htag] using hs, hfront, .inl rfl⟩
  · obtain ⟨hd, _, front, hs, hfront⟩ := divided_of_noColon h
    have hpath : ({ parse path with tag } : ImageRef).path = (parse path).path := rfl
    rw [parse_tagged h]
    refine ⟨⟨hd.repo_noColon, hd.name_noColon, hd.name_noSlash⟩, front, ?_⟩
    by_cases hempty : tag = ""
    · have htext : ({ parse path with tag } : ImageRef).text = (parse path).path := by
        rw [text, hpath, if_pos hempty, String.append_empty]
      refine ⟨":", ?_, hfront, .inr ⟨rfl, hempty⟩⟩
      rw [htext, ← hs, hempty, String.append_empty]
    · have htext : ({ parse path with tag } : ImageRef).text = (parse path).path ++ (":" ++ tag) := by
        rw [text, hpath, if_neg hempty]
      refine ⟨"", ?_, hfront, .inl rfl⟩
      rw [htext, String.append_empty, ← String.append_assoc, ← hs, String.append_assoc]

/-- The repository and the name are found in what is written of them. -/
theorem parse_path {front : String} (hd : r.Divided) (hf : front = "" ∨ front = "/" ∧ r.repo = "") :
    ':' ∉ (front ++ r.path).toList ∧ parse (front ++ r.path) = { r with tag := "" } := by
  obtain ⟨hr, hn, hs⟩ := hd
  by_cases hempty : r.repo = ""
  · have hpath : r.path = r.name := by simp [path, hempty]
    rw [hpath]
    rcases hf with rfl | ⟨rfl, _⟩
    · rw [String.empty_append, parse_of_noSlash hn hs, ← hempty]
      exact ⟨hn, rfl⟩
    · have hslashed := parse_slashed "" (by simp) hn hs
      rw [String.empty_append] at hslashed
      rw [hslashed, ← hempty]
      exact ⟨by simp [hn], rfl⟩
  · obtain rfl : front = "" := hf.resolve_right fun h => hempty h.2
    have hpath : r.path = r.repo ++ "/" ++ r.name := by simp [path, hempty]
    rw [hpath, String.empty_append, parse_slashed r.repo hr hn hs]
    exact ⟨by simp [hr, hn], rfl⟩

theorem parse_of_writtenAs (hd : r.Divided) (h : r.WrittenAs s) : parse s = r := by
  obtain ⟨front, back, rfl, hfront, hback⟩ := h
  obtain ⟨hcolon, hpath⟩ := parse_path hd hfront
  have htagged : ∀ tag, parse (front ++ r.path ++ ":" ++ tag) = { r with tag } := fun tag => by
    rw [parse_tagged hcolon, hpath]
  by_cases hempty : r.tag = ""
  · have htext : r.text = r.path := by simp [text, hempty]
    rw [htext]
    rcases hback with rfl | ⟨rfl, _⟩
    · rw [String.append_empty, hpath, ← hempty]
    · have hmark := htagged ""
      rw [String.append_empty] at hmark
      rw [hmark, ← hempty]
  · obtain rfl : back = "" := hback.resolve_right fun h => hempty h.2
    have htext : r.text = r.path ++ (":" ++ r.tag) := by simp [text, hempty]
    rw [htext, String.append_empty, ← String.append_assoc, ← String.append_assoc, htagged]

/-- Parts that are joined are found again. Of a reference that is split no more gets lost than a slash in
front of a name without a repository and a colon behind a name without a tag, so that references with the
same parts differ in nothing else. -/
theorem parse_keeps_parts :
    (∀ r : ImageRef, r.Divided → parse (r.repo ++ "/" ++ r.name ++ ":" ++ r.tag) = r ∧
      parse (r.name ++ ":" ++ r.tag) = { r with repo := "" }) ∧
    ∀ (s : String) (r : ImageRef), parse s = r ↔ r.Divided ∧ r.WrittenAs s := by
  refine ⟨fun r hd => ⟨?_, ?_⟩, fun s r => ⟨?_, fun h => parse_of_writtenAs h.1 h.2⟩⟩
  · have hcolon : ':' ∉ (r.repo ++ "/" ++ r.name).toList := by
      simp [hd.repo_noColon, hd.name_noColon]
    rw [parse_tagged hcolon, parse_slashed r.repo hd.repo_noColon hd.name_noColon hd.name_noSlash]
  · rw [parse_tagged hd.name_noColon, parse_of_noSlash hd.name_noColon hd.name_noSlash]
  · rintro rfl
    exact writtenAs_parse s

/-- A repository of two parts and a tag with a colon of its own; a slash and a colon that get lost. -/
theorem parse_keeps_ubuntu :
    (⟨"docker.io/library", "ubuntu", "22:04"⟩ : ImageRef).Divided ∧
      parse "docker.io/library/ubuntu:22:04" = ⟨"docker.io/library", "ubuntu", "22:04"⟩ ∧
      parse "ubuntu:22:04" = ⟨"", "ubuntu", "22:04"⟩ ∧
      (⟨"", "ubuntu", ""⟩ : ImageRef).text = "ubuntu" ∧ parse "/ubuntu:" = ⟨"", "ubuntu", ""⟩ := by
  have hd : (⟨"docker.io/library", "ubuntu", "22:04"⟩ : ImageRef).Divided :=
    ⟨by decide, by decide, by decide⟩
  have hname : (⟨"", "ubuntu", ""⟩ : ImageRef).Divided := ⟨by decide, by decide, by decide⟩
  obtain ⟨hparts, hiff⟩ := parse_keeps_parts
  have htext : (⟨"", "ubuntu", ""⟩ : ImageRef).text = "ubuntu" := by decide
  exact ⟨hd, (hparts _ hd).1, (hparts _ hd).2, htext,
    (hiff "/ubuntu:" _).mpr ⟨hname, "/", ":", by decide, by decide, by decide⟩⟩

end Attribution.ImageRef
