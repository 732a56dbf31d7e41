import Attribution.Proofs.Wire.Message

namespace Attribution.Wire

open Keeping (keep unknown)

instance : Keeping TypedValue where
  unknown v := v.unknown
  keep v bs := { v with unknown := v.unknown ++ bs }
  unknown_keep v bs := rfl
  keep_nil v := by simp
  keep_append v bs later := by simp

instance : Keeping RuntimeInfo where
  unknown r := r.unknown
  keep r bs := { r with unknown := r.unknown ++ bs }
  unknown_keep r bs := rfl
  keep_nil r := by simp
  keep_append r bs later := by simp

instance : Keeping LabelEntry where
  unknown e := e.unknown
  keep e bs := { e with unknown := e.unknown ++ bs }
  unknown_keep e bs := rfl
  keep_nil e := by simp
  keep_append e bs later := by simp

instance : Keeping Container where
  unknown c := c.unknown
  keep c bs := { c with unknown := c.unknown ++ bs }
  unknown_keep c bs := rfl
  keep_nil c := by simp
  keep_append c bs later := by simp

instance : Keeping ListRequest where
  unknown r := r.unknown
  keep r bs := { r with unknown := r.unknown ++ bs }
  unknown_keep r bs := rfl
  keep_nil r := by simp
  keep_append r bs later := by simp

instance : Keeping ListResponse where
  unknown r := r.unknown
  keep r bs := { r with unknown := r.unknown ++ bs }
  unknown_keep r bs := rfl
  keep_nil r := by simp
  keep_append r bs later := by simp

variable {f : Field} {depth : Nat}

theorem Field.isDeclared_one_two (h : f.isDeclared [1, 2] = true) :
    ∃ content, f.content? 1 = some content ∨ f.content? 2 = some content := by
  obtain ⟨number, hm, content, hc⟩ := isDeclared_iff.mp h
  have hn : number = 1 ∨ number = 2 := by simpa using hm
  rcases hn with rfl | rfl
  · exact ⟨content, .inl hc⟩
  · exact ⟨content, .inr hc⟩

namespace TypedValue

def numbers : List Nat := [1, 2]

theorem set_of_undeclared (h : f.isDeclared numbers = false) (v : TypedValue) :
    v.set f = some (keep v f.raw) := by
  unfold set
  split
  next hn hp => simp [Field.isDeclared, Field.content?, numbers, hn, hp] at h
  next hn hp => simp [Field.isDeclared, Field.content?, numbers, hn, hp] at h
  next => rfl

theorem unknown_of_declared (h : f.isDeclared numbers = true) {v w : TypedValue}
    (hs : v.set f = some w) : w.unknown = v.unknown := by
  obtain ⟨content, hc | hc⟩ := Field.isDeclared_one_two h
  · obtain ⟨hn, hp⟩ := Field.content?_eq_some.mp hc
    simp only [set, hn, hp] at hs
    obtain ⟨s, _, rfl⟩ := Option.map_eq_some_iff.mp hs
    rfl
  · obtain ⟨hn, hp⟩ := Field.content?_eq_some.mp hc
    simp only [set, hn, hp] at hs
    cases hs
    rfl

end TypedValue

namespace RuntimeInfo

def numbers : List Nat := [1, 2]

theorem set_of_undeclared (h : f.isDeclared numbers = false) (r : RuntimeInfo) :
    r.set depth f = some (keep r f.raw) := by
  unfold set
  split
  next hn hp => simp [Field.isDeclared, Field.content?, numbers, hn, hp] at h
  next hn hp => simp [Field.isDeclared, Field.content?, numbers, hn, hp] at h
  next => rfl

/-- What a declared field does to the description of a runtime. -/
inductive Update (depth : Nat) (f : Field) (r s : RuntimeInfo) : Prop
  | name (options : s.options = r.options) (kept : s.unknown = r.unknown)
  | options (content : Bytes) (v : TypedValue) (field : f.content? 2 = some content)
    (read : readInner (fun _ => TypedValue.set) depth (r.options.getD {}) content = some v)
    (made : s = { r with options := some v })

theorem update_of_declared (h : f.isDeclared numbers = true) {r s : RuntimeInfo}
    (hs : r.set depth f = some s) : Update depth f r s := by
  obtain ⟨content, hc | hc⟩ := Field.isDeclared_one_two h
  · obtain ⟨hn, hp⟩ := Field.content?_eq_some.mp hc
    simp only [set, hn, hp] at hs
    obtain ⟨s, _, rfl⟩ := Option.map_eq_some_iff.mp hs
    exact .name rfl rfl
  · obtain ⟨hn, hp⟩ := Field.content?_eq_some.mp hc
    simp only [set, hn, hp] at hs
    obtain ⟨v, hv, rfl⟩ := Option.map_eq_some_iff.mp hs
    exact .options content v hc hv rfl

theorem Update.unknown {r s : RuntimeInfo} (h : Update depth f r s) : s.unknown = r.unknown := by
  cases h with
  | name options kept => exact kept
  | options content v field read made => rw [made]

end RuntimeInfo

namespace LabelEntry

def numbers : List Nat := [1, 2]

theorem set_of_undeclared (h : f.isDeclared numbers = false) (e : LabelEntry) :
    e.set f = some (keep e f.raw) := by
  unfold set
  split
  next hn hp => simp [Field.isDeclared, Field.content?, numbers, hn, hp] at h
  next hn hp => simp [Field.isDeclared, Field.content?, numbers, hn, hp] at h
  next => rfl

theorem unknown_of_declared (h : f.isDeclared numbers = true) {e d : LabelEntry}
    (hs : e.set f = some d) : d.unknown = e.unknown := by
  obtain ⟨content, hc | hc⟩ := Field.isDeclared_one_two h
  all_goals
    obtain ⟨hn, hp⟩ := Field.content?_eq_some.mp hc
    simp only [set, hn, hp] at hs
    obtain ⟨s, _, rfl⟩ := Option.map_eq_some_iff.mp hs
    rfl

end LabelEntry

namespace Container

def numbers : List Nat := [1, 2, 3, 4, 5, 6, 7, 11]

theorem set_of_undeclared (h : f.isDeclared numbers = false) (c : Container) :
    c.set depth f = some (keep c f.raw) := by
  unfold set
  split
  case h_9 => rfl
  all_goals
    rename_i hn hp
    simp [Field.isDeclared, Field.content?, numbers, hn, hp] at h

/-- What a declared field does to a container. -/
inductive Update (depth : Nat) (f : Field) (c d : Container) : Prop
  | text (labels : d.labels = c.labels) (runtime : d.runtime = c.runtime) (spec : d.spec = c.spec)
    (kept : d.unknown = c.unknown)
  | label (content : Bytes) (e : LabelEntry)
    (read : readInner (fun _ => LabelEntry.set) depth {} content = some e) (made : d = c.setLabel e)
  | runtime (content : Bytes) (r : RuntimeInfo) (field : f.content? 4 = some content)
    (read : readInner RuntimeInfo.set depth (c.runtime.getD {}) content = some r)
    (made : d = { c with runtime := some r })
  | spec (content : Bytes) (v : TypedValue) (field : f.content? 5 = some content)
    (read : readInner (fun _ => TypedValue.set) depth (c.spec.getD {}) content = some v)
    (made : d = { c with spec := some v })

theorem content_of_declared (h : f.isDeclared numbers = true) :
    ∃ content, f.payload = .bytes content ∧ (f.number = 1 ∨ f.number = 2 ∨ f.number = 3 ∨
      f.number = 4 ∨ f.number = 5 ∨ f.number = 6 ∨ f.number = 7 ∨ f.number = 11) := by
  obtain ⟨number, hm, content, hc⟩ := Field.isDeclared_iff.mp h
  obtain ⟨rfl, hp⟩ := Field.content?_eq_some.mp hc
  exact ⟨content, hp, by simpa [numbers] using hm⟩

theorem update_of_declared (h : f.isDeclared numbers = true) {c d : Container}
    (hs : c.set depth f = some d) : Update depth f c d := by
  obtain ⟨content, hp, hn⟩ := content_of_declared h
  rcases hn with hn | hn | hn | hn | hn | hn | hn | hn
  all_goals
    simp only [set, hn, hp] at hs
    obtain ⟨x, hx, rfl⟩ := Option.map_eq_some_iff.mp hs
  case inr.inl => exact .label content x hx rfl
  case inr.inr.inr.inl => exact .runtime content x (Field.content?_eq_some.mpr ⟨hn, hp⟩) hx rfl
  case inr.inr.inr.inr.inl => exact .spec content x (Field.content?_eq_some.mpr ⟨hn, hp⟩) hx rfl
  all_goals exact .text rfl rfl rfl rfl

/-- Only a label with fields of its own that are not declared adds to what is kept. -/
theorem Update.unknown {c d : Container} (h : Update depth f c d) :
    ∃ piece, d.unknown = c.unknown ++ piece := by
  cases h with
  | text labels runtime spec kept => exact ⟨[], by rw [kept, List.append_nil]⟩
  | label content e read made =>
    rw [made, setLabel]
    split
    next => exact ⟨[], (List.append_nil _).symm⟩
    next => exact ⟨e.write, rfl⟩
  | runtime content r field read made => exact ⟨[], by rw [made, List.append_nil]⟩
  | spec content v field read made => exact ⟨[], by rw [made, List.append_nil]⟩

theorem setLabel_parts (c : Container) (e : LabelEntry) :
    (c.setLabel e).runtime = c.runtime ∧ (c.setLabel e).spec = c.spec := by
  unfold setLabel
  split
  next => exact ⟨rfl, rfl⟩
  next => exact ⟨rfl, rfl⟩

theorem runtime_of_set {c d : Container} (hs : c.set depth f = some d) (hc : f.content? 4 = none) :
    d.runtime = c.runtime := by
  cases hf : f.isDeclared numbers with
  | false =>
    obtain rfl := Option.some.inj ((set_of_undeclared hf c).symm.trans hs)
    rfl
  | true =>
    cases update_of_declared hf hs with
    | text labels runtime spec kept => exact runtime
    | label content e read made => rw [made, (setLabel_parts c e).1]
    | runtime content r field read made => simp [hc] at field
    | spec content v field read made => rw [made]

theorem spec_of_set {c d : Container} (hs : c.set depth f = some d) (hc : f.content? 5 = none) :
    d.spec = c.spec := by
  cases hf : f.isDeclared numbers with
  | false =>
    obtain rfl := Option.some.inj ((set_of_undeclared hf c).symm.trans hs)
    rfl
  | true =>
    cases update_of_declared hf hs with
    | text labels runtime spec kept => exact spec
    | label content e read made => rw [made, (setLabel_parts c e).2]
    | runtime content r field read made => rw [made]
    | spec content v field read made => simp [hc] at field

/-- What a field does to the rest of a container does not depend on what the container keeps. -/
theorem set_withUnknown {c d : Container} (h : c.set depth f = some d) (kept : Bytes) :
    ∃ kept', ({ c with unknown := kept } : Container).set depth f =
      some { d with unknown := kept' } := by
  cases hf : f.isDeclared numbers with
  | false =>
    rw [set_of_undeclared hf] at h ⊢
    cases h
    exact ⟨_, rfl⟩
  | true =>
    obtain ⟨content, hp, hn⟩ := content_of_declared hf
    rcases hn with hn | hn | hn | hn | hn | hn | hn | hn
    all_goals
      simp only [set, hn, hp] at h ⊢
      obtain ⟨x, hx, rfl⟩ := Option.map_eq_some_iff.mp h
      rw [hx]
    case inr.inl =>
      rw [Option.map_some]
      by_cases hu : x.unknown = []
      · exact ⟨kept, by simp [setLabel, hu]⟩
      · exact ⟨kept ++ x.write, by simp [setLabel, hu]⟩
    all_goals exact ⟨kept, rfl⟩

end Container

namespace ListRequest

def numbers : List Nat := [1]

theorem set_of_undeclared (h : f.isDeclared numbers = false) (r : ListRequest) :
    r.set f = some (keep r f.raw) := by
  unfold set
  split
  next hn hp => simp [Field.isDeclared, Field.content?, numbers, hn, hp] at h
  next => rfl

theorem unknown_of_declared (h : f.isDeclared numbers = true) {r s : ListRequest}
    (hs : r.set f = some s) : s.unknown = r.unknown := by
  obtain ⟨number, hm, content, hc⟩ := Field.isDeclared_iff.mp h
  obtain rfl : number = 1 := by simpa [numbers] using hm
  obtain ⟨hn, hp⟩ := Field.content?_eq_some.mp hc
  simp only [set, hn, hp] at hs
  obtain ⟨t, _, rfl⟩ := Option.map_eq_some_iff.mp hs
  rfl

end ListRequest

namespace ListResponse

def numbers : List Nat := [1]

theorem set_of_undeclared (h : f.isDeclared numbers = false) (r : ListResponse) :
    r.set depth f = some (keep r f.raw) := by
  unfold set
  split
  next hn hp => simp [Field.isDeclared, Field.content?, numbers, hn, hp] at h
  next => rfl

theorem set_of_declared (h : f.isDeclared numbers = true) {r s : ListResponse}
    (hs : r.set depth f = some s) : ∃ content c, f.content? 1 = some content ∧
      readInner Container.set depth {} content = some c ∧
        s = { r with containers := r.containers ++ [c] } := by
  obtain ⟨number, hm, content, hc⟩ := Field.isDeclared_iff.mp h
  obtain rfl : number = 1 := by simpa [numbers] using hm
  obtain ⟨hn, hp⟩ := Field.content?_eq_some.mp hc
  simp only [set, hn, hp] at hs
  obtain ⟨c, hr, rfl⟩ := Option.map_eq_some_iff.mp hs
  exact ⟨content, c, hc, hr, rfl⟩

end ListResponse

end Attribution.Wire
