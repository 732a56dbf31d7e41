import Attribution.Proofs.Wire.LabelOrder
import Attribution.Proofs.Wire.Retention

namespace Attribution.Wire

open Keeping (keep unknown)

variable {depth : Nat} {bs : Bytes}

theorem readInner_succ {α : Type} (set : Nat → α → Field → Option α) (a : α) :
    readInner set (depth + 1) a bs = readOnto (set depth) depth a bs := rfl

namespace TypedValue

/-- What the value keeps is kept when it is read again. -/
def Sound (depth : Nat) (v : TypedValue) : Prop := Kept set depth v.unknown

theorem sound_empty (depth : Nat) : Sound depth {} := Kept.nil set depth

theorem Sound.readOnto {v w : TypedValue} (hv : v.Sound depth)
    (h : readOnto set depth v bs = some w) : w.Sound depth :=
  kept_of_readOnto h hv (fun _ hf => set_of_undeclared hf) fun _ hf _ _ hs => unknown_of_declared hf hs

theorem brings_encode {v : TypedValue} (hv : v.Sound depth) : Brings set depth {} v.encode v := by
  have htype : Brings set depth {} (writeText 1 v.typeUrl) { typeUrl := v.typeUrl } :=
    Brings.text (fun s => ({ typeUrl := s } : TypedValue)) v.typeUrl (by decide) rfl
  have hvalue : Brings set depth { typeUrl := v.typeUrl }
      (if v.value = [] then [] else writeBytes 2 v.value) { typeUrl := v.typeUrl, value := v.value } := by
    split
    next he =>
      rw [he]
      exact Brings.nil set depth _
    next => exact Brings.bytes (by decide) fun _ => rfl
  exact (htype.append hvalue).append (hv { typeUrl := v.typeUrl, value := v.value })

end TypedValue

namespace RuntimeInfo

structure Sound (depth : Nat) (r : RuntimeInfo) : Prop where
  unknown : Kept (set (depth + 1)) (depth + 1) r.unknown
  options : ∀ v, r.options = some v → v.Sound depth

theorem sound_empty (depth : Nat) : Sound depth {} := ⟨Kept.nil _ _, by simp⟩

theorem Sound.getD_options {r : RuntimeInfo} (hr : r.Sound depth) : (r.options.getD {}).Sound depth := by
  cases ho : r.options with
  | none => exact TypedValue.sound_empty depth
  | some v => exact hr.options v ho

theorem Sound.readOnto {r s : RuntimeInfo} (hr : r.Sound depth)
    (h : readOnto (set (depth + 1)) (depth + 1) r bs = some s) : s.Sound depth := by
  refine readOnto_induction h hr ?_
  intro r f s hreads hs hr
  cases hf : f.isDeclared numbers with
  | false =>
    have he (r : RuntimeInfo) : r.set (depth + 1) f = some (Keeping.keep r f.raw) :=
      set_of_undeclared hf r
    obtain rfl := Option.some.inj ((he r).symm.trans hs)
    exact ⟨hr.unknown.append (Kept.raw hreads he), hr.options⟩
  | true =>
    cases update_of_declared hf hs with
    | name options kept => exact ⟨kept ▸ hr.unknown, options ▸ hr.options⟩
    | options content v field read made =>
      rw [made]
      refine ⟨hr.unknown, ?_⟩
      rintro w ⟨⟩
      exact hr.getD_options.readOnto read

theorem brings_encode {r : RuntimeInfo} (hr : r.Sound depth) :
    Brings (set (depth + 1)) (depth + 1) {} r.encode r := by
  have hname : Brings (set (depth + 1)) (depth + 1) {} (writeText 1 r.name) { name := r.name } :=
    Brings.text (fun s => ({ name := s } : RuntimeInfo)) r.name (by decide) rfl
  have hoptions : Brings (set (depth + 1)) (depth + 1) { name := r.name }
      (writeInner TypedValue.encode 2 r.options) { name := r.name, options := r.options } := by
    refine Brings.inner (fun o => ({ name := r.name, options := o } : RuntimeInfo)) r.options
      (by decide) ?_
    intro v ho hl
    have hv := TypedValue.brings_encode (hr.options v ho) hl
    simp [set, bytesField, readInner_succ, hv]
  exact (hname.append hoptions).append (hr.unknown { name := r.name, options := r.options })

end RuntimeInfo

namespace LabelEntry

def Sound (depth : Nat) (e : LabelEntry) : Prop := Kept set depth e.unknown

theorem sound_of_readOnto {e : LabelEntry} (h : readOnto set depth {} bs = some e) : e.Sound depth :=
  kept_of_readOnto h (Kept.nil set depth) (fun _ hf => set_of_undeclared hf)
    fun _ hf _ _ hs => unknown_of_declared hf hs

theorem brings_body {e : LabelEntry} (he : e.Sound depth) :
    Brings set depth {} (writeText 1 e.key ++ writeText 2 e.value ++ e.unknown) e := by
  have hkey : Brings set depth {} (writeText 1 e.key) { key := e.key } :=
    Brings.text (fun s => ({ key := s } : LabelEntry)) e.key (by decide) rfl
  have hvalue : Brings set depth { key := e.key } (writeText 2 e.value)
      { key := e.key, value := e.value } :=
    Brings.text (fun s => ({ key := e.key, value := s } : LabelEntry)) e.value (by decide) rfl
  exact (hkey.append hvalue).append (he { key := e.key, value := e.value })

end LabelEntry

namespace Container

theorem set_label (depth : Nat) (c : Container) (content : Bytes) :
    c.set depth (bytesField 2 content) =
      (readInner (fun _ => LabelEntry.set) depth {} content).map c.setLabel := rfl

theorem kept_write {e : LabelEntry} (he : e.Sound depth) (hu : e.unknown ≠ []) :
    Kept (set (depth + 1)) (depth + 1) e.write := by
  intro c
  refine Brings.bytes (by decide) fun hl => ?_
  rw [set_label, readInner_succ, LabelEntry.brings_body he hl, Option.map_some, setLabel, if_neg hu]
  rfl

structure Sound (depth : Nat) (c : Container) : Prop where
  labels : (Assoc.keys c.labels).Nodup
  runtime : ∀ r, c.runtime = some r → r.Sound depth
  spec : ∀ v, c.spec = some v → v.Sound (depth + 1)
  unknown : Kept (set (depth + 2)) (depth + 2) c.unknown

theorem sound_empty (depth : Nat) : Sound depth {} where
  labels := List.nodup_nil
  runtime := by simp
  spec := by simp
  unknown := Kept.nil _ _

theorem Sound.setLabel {c : Container} (hc : c.Sound depth) {e : LabelEntry}
    (he : e.Sound (depth + 1)) : (c.setLabel e).Sound depth := by
  unfold Container.setLabel
  split
  next => exact { hc with labels := Assoc.nodup_keys_set hc.labels e.key e.value }
  next hu => exact { hc with unknown := hc.unknown.append (kept_write he hu) }

theorem Sound.update {c d : Container} (hc : c.Sound depth) {f : Field} (h : Update (depth + 2) f c d) :
    d.Sound depth := by
  cases h with
  | text labels runtime spec kept =>
    exact ⟨labels ▸ hc.labels, runtime ▸ hc.runtime, spec ▸ hc.spec, kept ▸ hc.unknown⟩
  | label content e read made =>
    rw [made]
    exact hc.setLabel (LabelEntry.sound_of_readOnto read)
  | runtime content r field read made =>
    have hstart : (c.runtime.getD {}).Sound depth := by
      cases hr : c.runtime with
      | none => exact RuntimeInfo.sound_empty depth
      | some r => exact hc.runtime r hr
    rw [made]
    refine { hc with runtime := ?_ }
    rintro s ⟨⟩
    exact hstart.readOnto read
  | spec content v field read made =>
    have hstart : (c.spec.getD {}).Sound (depth + 1) := by
      cases hv : c.spec with
      | none => exact TypedValue.sound_empty (depth + 1)
      | some v => exact hc.spec v hv
    rw [made]
    refine { hc with spec := ?_ }
    rintro w ⟨⟩
    exact hstart.readOnto read

theorem sound_of_readOnto {c : Container}
    (h : readOnto (set (depth + 2)) (depth + 2) {} bs = some c) : c.Sound depth := by
  refine readOnto_induction h (sound_empty depth) ?_
  intro c f d hr hs hc
  cases hf : f.isDeclared numbers with
  | false =>
    have he (c : Container) : c.set (depth + 2) f = some (Keeping.keep c f.raw) :=
      set_of_undeclared hf c
    obtain rfl := Option.some.inj ((he c).symm.trans hs)
    exact { hc with unknown := hc.unknown.append (Kept.raw hr he) }
  | true => exact hc.update (update_of_declared hf hs)

/-- The container with its labels in the order in which they are written. -/
def sorted (c : Container) : Container := { c with labels := sortLabels c.labels }

theorem brings_label (depth : Nat) (c : Container) (done : List (String × String)) (label : String × String) :
    Brings (set (depth + 1)) (depth + 1) { c with labels := Assoc.ofPairs done } (writeLabel label)
      { c with labels := Assoc.ofPairs (done ++ [label]) } := by
  have hkey : Brings LabelEntry.set depth {} (writeBytes 1 (textBytes label.1)) { key := label.1 } :=
    Brings.bytes (by decide) fun _ => by simp [LabelEntry.set, bytesField, text?_textBytes]
  have hvalue : Brings LabelEntry.set depth { key := label.1 } (writeBytes 2 (textBytes label.2))
      { key := label.1, value := label.2 } :=
    Brings.bytes (by decide) fun _ => by simp [LabelEntry.set, bytesField, text?_textBytes]
  refine Brings.bytes (by decide) fun hl => ?_
  rw [set_label, readInner_succ, hkey.append hvalue hl, Option.map_some, setLabel, if_pos rfl,
    Assoc.ofPairs_concat]

theorem set_runtime (depth : Nat) (c : Container) (content : Bytes) :
    c.set depth (bytesField 4 content) =
      (readInner RuntimeInfo.set depth (c.runtime.getD {}) content).map fun r =>
        { c with runtime := some r } := rfl

theorem set_spec (depth : Nat) (c : Container) (content : Bytes) :
    c.set depth (bytesField 5 content) =
      (readInner (fun _ => TypedValue.set) depth (c.spec.getD {}) content).map fun v =>
        { c with spec := some v } := rfl

theorem brings_encode {c : Container} (hc : c.Sound depth) :
    Brings (set (depth + 2)) (depth + 2) {} c.encode c.sorted := by
  have hid : Brings (set (depth + 2)) (depth + 2) {} (writeText 1 c.id)
      ⟨c.id, [], "", none, none, "", "", "", []⟩ :=
    Brings.text (fun s => (⟨s, [], "", none, none, "", "", "", []⟩ : Container)) c.id (by decide) rfl
  have hlabels : Brings (set (depth + 2)) (depth + 2) ⟨c.id, [], "", none, none, "", "", "", []⟩
      ((sortLabels c.labels).flatMap writeLabel)
      ⟨c.id, sortLabels c.labels, "", none, none, "", "", "", []⟩ := by
    have hl := Brings.items
      (fun done => (⟨c.id, Assoc.ofPairs done, "", none, none, "", "", "", []⟩ : Container))
      (sortLabels c.labels) fun done label _ => brings_label (depth + 1) { id := c.id } done label
    rwa [Assoc.ofPairs_of_nodup (nodup_sortLabels hc.labels)] at hl
  have himage : Brings (set (depth + 2)) (depth + 2)
      ⟨c.id, sortLabels c.labels, "", none, none, "", "", "", []⟩ (writeText 3 c.image)
      ⟨c.id, sortLabels c.labels, c.image, none, none, "", "", "", []⟩ :=
    Brings.text (fun s => (⟨c.id, sortLabels c.labels, s, none, none, "", "", "", []⟩ : Container))
      c.image (by decide) rfl
  have hruntime : Brings (set (depth + 2)) (depth + 2)
      ⟨c.id, sortLabels c.labels, c.image, none, none, "", "", "", []⟩
      (writeInner RuntimeInfo.encode 4 c.runtime)
      ⟨c.id, sortLabels c.labels, c.image, c.runtime, none, "", "", "", []⟩ := by
    refine Brings.inner (fun o =>
      (⟨c.id, sortLabels c.labels, c.image, o, none, "", "", "", []⟩ : Container)) c.runtime
      (by decide) fun r hr hl => ?_
    rw [set_runtime, readInner_succ]
    dsimp only [Option.getD_none]
    rw [RuntimeInfo.brings_encode (hc.runtime r hr) hl, Option.map_some]
  have hspec : Brings (set (depth + 2)) (depth + 2)
      ⟨c.id, sortLabels c.labels, c.image, c.runtime, none, "", "", "", []⟩
      (writeInner TypedValue.encode 5 c.spec)
      ⟨c.id, sortLabels c.labels, c.image, c.runtime, c.spec, "", "", "", []⟩ := by
    refine Brings.inner (fun o =>
      (⟨c.id, sortLabels c.labels, c.image, c.runtime, o, "", "", "", []⟩ : Container)) c.spec
      (by decide) fun v hv hl => ?_
    rw [set_spec, readInner_succ]
    dsimp only [Option.getD_none]
    rw [TypedValue.brings_encode (hc.spec v hv) hl, Option.map_some]
  have hsnapshotter : Brings (set (depth + 2)) (depth + 2)
      ⟨c.id, sortLabels c.labels, c.image, c.runtime, c.spec, "", "", "", []⟩
      (writeText 6 c.snapshotter)
      ⟨c.id, sortLabels c.labels, c.image, c.runtime, c.spec, c.snapshotter, "", "", []⟩ :=
    Brings.text (fun s =>
      (⟨c.id, sortLabels c.labels, c.image, c.runtime, c.spec, s, "", "", []⟩ : Container))
      c.snapshotter (by decide) rfl
  have hkey : Brings (set (depth + 2)) (depth + 2)
      ⟨c.id, sortLabels c.labels, c.image, c.runtime, c.spec, c.snapshotter, "", "", []⟩
      (writeText 7 c.snapshotKey)
      ⟨c.id, sortLabels c.labels, c.image, c.runtime, c.spec, c.snapshotter, c.snapshotKey, "", []⟩ :=
    Brings.text (fun s =>
      (⟨c.id, sortLabels c.labels, c.image, c.runtime, c.spec, c.snapshotter, s, "", []⟩ : Container))
      c.snapshotKey (by decide) rfl
  have hsandbox : Brings (set (depth + 2)) (depth + 2)
      ⟨c.id, sortLabels c.labels, c.image, c.runtime, c.spec, c.snapshotter, c.snapshotKey, "", []⟩
      (writeText 11 c.sandbox) { c.sorted with unknown := [] } :=
    Brings.text (fun s => ({ c.sorted with sandbox := s, unknown := [] } : Container)) c.sandbox
      (by decide) rfl
  have hknown := ((((((hid.append hlabels).append himage).append hruntime).append hspec).append
    hsnapshotter).append hkey).append hsandbox
  exact hknown.append (hc.unknown { c.sorted with unknown := [] })

end Container

namespace ListRequest

def Sound (depth : Nat) (r : ListRequest) : Prop := Kept set depth r.unknown

theorem sound_of_readOnto {r : ListRequest} (h : readOnto set depth {} bs = some r) :
    r.Sound depth :=
  kept_of_readOnto h (Kept.nil set depth) (fun _ hf => set_of_undeclared hf)
    fun _ hf _ _ hs => unknown_of_declared hf hs

theorem brings_encode {r : ListRequest} (hr : r.Sound depth) : Brings set depth {} r.encode r := by
  have hfilters : Brings set depth {} (r.filters.flatMap fun f => writeBytes 1 (textBytes f))
      { filters := r.filters } :=
    Brings.items (fun done => ({ filters := done } : ListRequest)) r.filters fun done f _ =>
      Brings.bytes (by decide) fun _ => by simp [set, bytesField, text?_textBytes]
  exact hfilters.append (hr { filters := r.filters })

end ListRequest

namespace ListResponse

structure Sound (depth : Nat) (r : ListResponse) : Prop where
  containers : ∀ c ∈ r.containers, c.Sound depth
  unknown : Kept (set (depth + 3)) (depth + 3) r.unknown

theorem sound_of_readOnto {r : ListResponse}
    (h : readOnto (set (depth + 3)) (depth + 3) {} bs = some r) : r.Sound depth := by
  refine readOnto_induction h ⟨by simp, Kept.nil _ _⟩ ?_
  intro r f s hreads hs hr
  cases hf : f.isDeclared numbers with
  | false =>
    have he (r : ListResponse) : r.set (depth + 3) f = some (Keeping.keep r f.raw) :=
      set_of_undeclared hf r
    obtain rfl := Option.some.inj ((he r).symm.trans hs)
    exact ⟨hr.containers, hr.unknown.append (Kept.raw hreads he)⟩
  | true =>
    obtain ⟨content, c, _, hc, rfl⟩ := set_of_declared hf hs
    refine ⟨?_, hr.unknown⟩
    intro d hd
    rcases List.mem_append.mp hd with hd | hd
    · exact hr.containers d hd
    · rw [List.mem_singleton.mp hd]
      exact Container.sound_of_readOnto hc

theorem set_container (depth : Nat) (r : ListResponse) (content : Bytes) :
    r.set depth (bytesField 1 content) =
      (readInner Container.set depth {} content).map fun c =>
        { r with containers := r.containers ++ [c] } := rfl

/-- The response with the labels of all containers in the order in which they are written. -/
def sorted (r : ListResponse) : ListResponse :=
  { r with containers := r.containers.map Container.sorted }

theorem brings_encode {r : ListResponse} (hr : r.Sound depth) :
    Brings (set (depth + 3)) (depth + 3) {} r.encode r.sorted := by
  have hcontainers : Brings (set (depth + 3)) (depth + 3) {}
      (r.containers.flatMap fun c => writeBytes 1 c.encode) { r.sorted with unknown := [] } := by
    refine Brings.items (fun done => ({ containers := done.map Container.sorted } : ListResponse))
      r.containers fun done c hc => Brings.bytes (by decide) fun hl => ?_
    rw [set_container, readInner_succ, Container.brings_encode (hr.containers c hc) hl,
      Option.map_some, List.map_append]
    rfl
  exact hcontainers.append (hr.unknown { r.sorted with unknown := [] })

end ListResponse

namespace Container

/-- Two containers with the same content. Their labels have no order. -/
structure Same (c d : Container) : Prop where
  labels : c.labels.Perm d.labels
  others : { c with labels := [] } = { d with labels := [] }

theorem sorted_same (c : Container) : c.sorted.Same c := ⟨sortLabels_perm c.labels, rfl⟩

theorem encode_sorted (c : Container) : c.sorted.encode = c.encode := by
  unfold encode sorted
  rw [sortLabels_sortLabels]

theorem decode_encode {c : Container} (hc : c.Sound 98) (hl : c.encode.length < maxSize) :
    decode c.encode = some c.sorted := brings_encode hc hl

/-- A container as it is put together: each label has a key of its own, and nothing is undeclared. -/
structure Made (c : Container) : Prop where
  labels : (Assoc.keys c.labels).Nodup
  runtime : ∀ r, c.runtime = some r → r.unknown = [] ∧ ∀ v, r.options = some v → v.unknown = []
  spec : ∀ v, c.spec = some v → v.unknown = []
  unknown : c.unknown = []

theorem Made.sound {c : Container} (hc : c.Made) (depth : Nat) : c.Sound depth where
  labels := hc.labels
  runtime r hr := by
    obtain ⟨hu, ho⟩ := hc.runtime r hr
    refine ⟨hu ▸ Kept.nil _ _, ?_⟩
    intro v hv
    rw [TypedValue.Sound, ho v hv]
    exact Kept.nil _ _
  spec v hv := by
    rw [TypedValue.Sound, hc.spec v hv]
    exact Kept.nil _ _
  unknown := hc.unknown ▸ Kept.nil _ _

end Container

namespace ListResponse

/-- Two responses that list the same containers in the same order. -/
structure Same (r s : ListResponse) : Prop where
  containers : List.Forall₂ Container.Same r.containers s.containers
  unknown : r.unknown = s.unknown

theorem sorted_same (r : ListResponse) : r.sorted.Same r where
  containers := List.forall₂_map_left_iff.mpr (List.forall₂_same.mpr fun c _ => c.sorted_same)
  unknown := rfl

theorem encode_sorted (r : ListResponse) : r.sorted.encode = r.encode := by
  simp only [encode, sorted, List.flatMap_map, Container.encode_sorted]

theorem decode_encode {r : ListResponse} (hr : r.Sound 97) (hl : r.encode.length < maxSize) :
    decode r.encode = some r.sorted := brings_encode hr hl

structure Made (r : ListResponse) : Prop where
  containers : ∀ c ∈ r.containers, c.Made
  unknown : r.unknown = []

theorem Made.sound {r : ListResponse} (hr : r.Made) (depth : Nat) : r.Sound depth where
  containers c hc := (hr.containers c hc).sound depth
  unknown := hr.unknown ▸ Kept.nil _ _

end ListResponse

/-- What was read from bytes is read again from the bytes that it is written as, undeclared fields
included, and is then written in the same bytes. -/
def Settles {α : Type} (decode : Bytes → Option α) (encode : α → Bytes) (same : α → α → Prop)
    (a : α) : Prop :=
  ∃ b, decode (encode a) = some b ∧ same b a ∧ encode b = encode a

/-- What is put together is read as it was written, and what was read, with all that was not declared
at any depth, keeps its meaning and its bytes from the first time that it is written. -/
theorem messages_round_trip :
    (∀ r : ListResponse, r.Made → r.encode.length < maxSize →
      ∃ s, ListResponse.decode r.encode = some s ∧ s.Same r) ∧
    (∀ bs c, Container.decode bs = some c → c.Retains 98 bs ∧
      (c.encode.length < maxSize → Settles Container.decode Container.encode Container.Same c)) ∧
    (∀ bs r, ListResponse.decode bs = some r → r.Retains 97 bs ∧
      (r.encode.length < maxSize →
        Settles ListResponse.decode ListResponse.encode ListResponse.Same r)) ∧
    (∀ bs r, ListRequest.decode bs = some r →
      KeepsUndeclared ListRequest.numbers maxDepth bs r.unknown ∧
      (r.encode.length < maxSize → Settles ListRequest.decode ListRequest.encode (· = ·) r)) := by
  refine ⟨?_, ?_, ?_, ?_⟩
  · intro r hr hl
    exact ⟨r.sorted, ListResponse.decode_encode (hr.sound 97) hl, r.sorted_same⟩
  · intro bs c h
    refine ⟨Container.retains_of_readOnto h, fun hl => ?_⟩
    exact ⟨c.sorted, Container.decode_encode (Container.sound_of_readOnto h) hl, c.sorted_same,
      c.encode_sorted⟩
  · intro bs r h
    refine ⟨ListResponse.retains_of_readOnto h, fun hl => ?_⟩
    exact ⟨r.sorted, ListResponse.decode_encode (ListResponse.sound_of_readOnto h) hl, r.sorted_same,
      r.encode_sorted⟩
  · intro bs r h
    refine ⟨ListRequest.keepsUndeclared h, fun hl => ?_⟩
    exact ⟨r, ListRequest.brings_encode (ListRequest.sound_of_readOnto h) hl, rfl, rfl⟩

namespace Filled

/-- Labels in no order, and messages that are absent, empty or filled. -/
def container : Container where
  id := "é😀"
  labels := [("b", ""), ("a", "\x00")]
  runtime := some { name := "runc", options := some { value := [0, 255] } }
  spec := some {}

def response : ListResponse := { containers := [container, { runtime := some {} }] }

theorem response_made : response.Made where
  containers c hc := by
    simp only [response, List.mem_cons, List.not_mem_nil, or_false] at hc
    rcases hc with rfl | rfl
    · refine ⟨by decide, ?_, ?_, rfl⟩
      · rintro r ⟨⟩
        exact ⟨rfl, by rintro v ⟨⟩; rfl⟩
      · rintro v ⟨⟩
        rfl
    · refine ⟨by decide, ?_, by rintro v ⟨⟩, rfl⟩
      rintro r ⟨⟩
      exact ⟨rfl, by rintro v ⟨⟩⟩
  unknown := rfl

/-- Two labels with a field of an unknown number between them, which goes behind them. -/
def containerBytes : Bytes := [18, 5, 10, 1, 98, 18, 0, 72, 1, 18, 5, 10, 1, 97, 18, 0]

def responseBytes : Bytes := [16, 7, 10, 16] ++ containerBytes

def requestBytes : Bytes := [16, 7, 10, 1, 120]

def kept : Container := { labels := [("b", ""), ("a", "")], unknown := [72, 1] }

theorem sortLabels_nil : sortLabels [] = [] := List.mergeSort_nil

theorem sortLabels_two (first second : String) :
    sortLabels [("b", first), ("a", second)] = [("a", second), ("b", first)] := by
  have h : keyPrecedes (textBytes "b") (textBytes "a") = false := rfl
  simp [sortLabels, List.mergeSort, List.MergeSort.Internal.splitInTwo, h]

theorem round_trip_filled :
    (∃ s, ListResponse.decode response.encode = some s ∧ s.Same response) ∧
    (Container.decode containerBytes = some kept ∧ kept.Retains 98 containerBytes ∧
      Settles Container.decode Container.encode Container.Same kept ∧
      kept.encode = [18, 5, 10, 1, 97, 18, 0, 18, 5, 10, 1, 98, 18, 0, 72, 1]) ∧
    (ListResponse.decode responseBytes = some ⟨[kept], [16, 7]⟩ ∧
      ListResponse.Retains 97 responseBytes ⟨[kept], [16, 7]⟩ ∧
      Settles ListResponse.decode ListResponse.encode ListResponse.Same ⟨[kept], [16, 7]⟩) ∧
    ListRequest.decode requestBytes = some ⟨["x"], [16, 7]⟩ ∧
      KeepsUndeclared ListRequest.numbers maxDepth requestBytes [16, 7] ∧
      Settles ListRequest.decode ListRequest.encode (· = ·) ⟨["x"], [16, 7]⟩ := by
  obtain ⟨made, containers, responses, requests⟩ := messages_round_trip
  have hcontainer : Container.decode containerBytes = some kept := by decide +kernel
  have hresponse : ListResponse.decode responseBytes = some ⟨[kept], [16, 7]⟩ := by decide +kernel
  have hrequest : ListRequest.decode requestBytes = some ⟨["x"], [16, 7]⟩ := by decide +kernel
  obtain ⟨hcontainerKept, hcontainerSettles⟩ := containers _ _ hcontainer
  obtain ⟨hresponseKept, hresponseSettles⟩ := responses _ _ hresponse
  obtain ⟨hrequestKept, hrequestSettles⟩ := requests _ _ hrequest
  have hmade : response.encode.length = 45 := by
    simp only [ListResponse.encode, response, List.flatMap_cons, List.flatMap_nil, Container.encode,
      container, sortLabels_nil, sortLabels_two]
    decide +kernel
  have hkept : kept.encode = [18, 5, 10, 1, 97, 18, 0, 18, 5, 10, 1, 98, 18, 0, 72, 1] := by
    simp only [Container.encode, kept, sortLabels_two]
    decide +kernel
  have hlisted : (ListResponse.encode ⟨[kept], [16, 7]⟩).length = 20 := by
    simp only [ListResponse.encode, List.flatMap_cons, List.flatMap_nil, hkept]
    decide +kernel
  exact ⟨made response response_made (hmade ▸ by decide),
    ⟨hcontainer, hcontainerKept, hcontainerSettles (hkept ▸ by decide), hkept⟩,
    ⟨hresponse, hresponseKept, hresponseSettles (hlisted ▸ by decide)⟩,
    hrequest, hrequestKept, hrequestSettles (by decide +kernel)⟩

end Filled

end Attribution.Wire
