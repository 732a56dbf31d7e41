import Attribution.Proofs.Wire.Undeclared
import Mathlib.Data.List.Forall2

namespace Attribution.Wire

open Keeping (keep unknown)

/-- Among the pieces that are kept are all the undeclared fields of a message, in order. -/
def KeepsUndeclared (numbers : List Nat) (depth : Nat) (bs kept : Bytes) : Prop :=
  ∀ fs, fields depth bs = some fs → ∃ pieces : List Bytes, kept = pieces.flatten ∧
    ((fs.filter fun f => !f.isDeclared numbers).map Field.raw).Sublist pieces

theorem keepsUndeclared_of_readOnto {α : Type} [Keeping α] {set : α → Field → Option α}
    {numbers : List Nat} {depth : Nat} {bs : Bytes} {a b : α}
    (h : readOnto set depth a bs = some b) (ha : unknown a = [])
    (undeclared : ∀ f, f.isDeclared numbers = false → ∀ a, set a f = some (keep a f.raw))
    (declared : ∀ f, f.isDeclared numbers = true → ∀ a b, set a f = some b →
      ∃ piece, unknown b = unknown a ++ piece) : KeepsUndeclared numbers depth bs (unknown b) := by
  intro fs hfs
  obtain ⟨gs, hg, hb⟩ := readOnto_eq_some.mp h
  obtain rfl : gs = fs := Option.some.inj (hg.symm.trans hfs)
  clear h hg hfs
  induction gs using List.reverseRecOn generalizing b with
  | nil =>
    obtain rfl := Option.some.inj hb
    exact ⟨[], ha, List.Sublist.refl _⟩
  | append_singleton gs f ih =>
    rw [List.foldlM_append] at hb
    obtain ⟨middle, hm, hb⟩ := Option.bind_eq_some_iff.mp hb
    have hs : set middle f = some b := by simpa using hb
    obtain ⟨pieces, hp, hsub⟩ := ih hm
    rw [List.filter_append, List.map_append]
    cases hf : f.isDeclared numbers with
    | false =>
      obtain rfl := Option.some.inj ((undeclared f hf middle).symm.trans hs)
      refine ⟨pieces ++ [f.raw], by simp [Keeping.unknown_keep, hp], ?_⟩
      exact hsub.append (by simp [hf])
    | true =>
      obtain ⟨piece, hu⟩ := declared f hf middle b hs
      refine ⟨pieces ++ [piece], by simp [hu, hp], ?_⟩
      exact hsub.append (by simp [hf])

variable {depth : Nat} {bs : Bytes}

namespace TypedValue

def Retains (depth : Nat) (bs : Bytes) (v : TypedValue) : Prop :=
  KeepsUndeclared numbers depth bs v.unknown

theorem retains_of_readOnto {v : TypedValue} (h : readOnto set depth {} bs = some v) :
    v.Retains depth bs := by
  refine keepsUndeclared_of_readOnto h rfl (fun f => set_of_undeclared) ?_
  intro f hf v w hs
  exact ⟨[], (unknown_of_declared hf hs).trans (List.append_nil _).symm⟩

end TypedValue

namespace RuntimeInfo

/-- The options may have come in several fields. -/
structure Retains (depth : Nat) (bs : Bytes) (r : RuntimeInfo) : Prop where
  own : KeepsUndeclared numbers (depth + 1) bs r.unknown
  options : ∀ fs, fields (depth + 1) bs = some fs →
    (r.options.getD {}).Retains depth (contents 2 fs).flatten

theorem retains_of_readOnto {r : RuntimeInfo}
    (h : readOnto (set (depth + 1)) (depth + 1) {} bs = some r) : r.Retains depth bs where
  own := by
    refine keepsUndeclared_of_readOnto h rfl (fun f => set_of_undeclared) ?_
    intro f hf r s hs
    exact ⟨[], (update_of_declared hf hs).unknown.trans (List.append_nil _).symm⟩
  options fs hfs := by
    apply TypedValue.retains_of_readOnto
    refine readOnto_contents (fun r : RuntimeInfo => r.options.getD {}) h hfs ?_ ?_
    · intro r f s hs hc
      cases hf : f.isDeclared numbers with
      | false =>
        obtain rfl := Option.some.inj ((set_of_undeclared hf r).symm.trans hs)
        rfl
      | true =>
        cases update_of_declared hf hs with
        | name options kept => rw [options]
        | options content v field read made => simp [hc] at field
    · intro r f s content hs hc
      obtain ⟨hn, hp⟩ := Field.content?_eq_some.mp hc
      simp only [set, hn, hp] at hs
      obtain ⟨v, hv, rfl⟩ := Option.map_eq_some_iff.mp hs
      exact hv

end RuntimeInfo

namespace Container

/-- The runtime and the specification may have come in several fields. -/
structure Retains (depth : Nat) (bs : Bytes) (c : Container) : Prop where
  own : KeepsUndeclared numbers (depth + 2) bs c.unknown
  runtime : ∀ fs, fields (depth + 2) bs = some fs →
    (c.runtime.getD {}).Retains depth (contents 4 fs).flatten
  spec : ∀ fs, fields (depth + 2) bs = some fs →
    (c.spec.getD {}).Retains (depth + 1) (contents 5 fs).flatten

theorem retains_of_readOnto {c : Container}
    (h : readOnto (set (depth + 2)) (depth + 2) {} bs = some c) : c.Retains depth bs where
  own := by
    refine keepsUndeclared_of_readOnto h rfl (fun f => set_of_undeclared) ?_
    intro f hf c d hs
    exact (update_of_declared hf hs).unknown
  runtime fs hfs := by
    apply RuntimeInfo.retains_of_readOnto
    refine readOnto_contents (fun c : Container => c.runtime.getD {}) h hfs ?_ ?_
    · intro c f d hs hc
      rw [runtime_of_set hs hc]
    · intro c f d content hs hc
      obtain ⟨hn, hp⟩ := Field.content?_eq_some.mp hc
      simp only [set, hn, hp] at hs
      obtain ⟨r, hr, rfl⟩ := Option.map_eq_some_iff.mp hs
      exact hr
  spec fs hfs := by
    apply TypedValue.retains_of_readOnto
    refine readOnto_contents (fun c : Container => c.spec.getD {}) h hfs ?_ ?_
    · intro c f d hs hc
      rw [spec_of_set hs hc]
    · intro c f d content hs hc
      obtain ⟨hn, hp⟩ := Field.content?_eq_some.mp hc
      simp only [set, hn, hp] at hs
      obtain ⟨v, hv, rfl⟩ := Option.map_eq_some_iff.mp hs
      exact hv

end Container

namespace ListRequest

theorem keepsUndeclared {r : ListRequest} (h : readOnto set depth {} bs = some r) :
    KeepsUndeclared numbers depth bs r.unknown := by
  refine keepsUndeclared_of_readOnto h rfl (fun f => set_of_undeclared) ?_
  intro f hf r s hs
  exact ⟨[], (unknown_of_declared hf hs).trans (List.append_nil _).symm⟩

end ListRequest

namespace ListResponse

structure Retains (depth : Nat) (bs : Bytes) (r : ListResponse) : Prop where
  own : KeepsUndeclared numbers (depth + 3) bs r.unknown
  containers : ∀ fs, fields (depth + 3) bs = some fs →
    List.Forall₂ (fun content c => Container.Retains depth content c) (contents 1 fs) r.containers

theorem retains_of_readOnto {r : ListResponse}
    (h : readOnto (set (depth + 3)) (depth + 3) {} bs = some r) : r.Retains depth bs where
  own := by
    refine keepsUndeclared_of_readOnto h rfl (fun f => set_of_undeclared) ?_
    intro f hf r s hs
    obtain ⟨content, c, _, _, rfl⟩ := set_of_declared hf hs
    exact ⟨[], (List.append_nil _).symm⟩
  containers fs hfs := by
    obtain ⟨gs, hg, hr⟩ := readOnto_eq_some.mp h
    obtain rfl : gs = fs := Option.some.inj (hg.symm.trans hfs)
    clear h hg hfs
    induction gs using List.reverseRecOn generalizing r with
    | nil =>
      obtain rfl := Option.some.inj hr
      exact .nil
    | append_singleton gs f ih =>
      rw [List.foldlM_append] at hr
      obtain ⟨middle, hm, hr⟩ := Option.bind_eq_some_iff.mp hr
      have hs : set (depth + 3) middle f = some r := by simpa using hr
      rw [contents, List.filterMap_append]
      cases hf : f.isDeclared numbers with
      | false =>
        have hgs := ih hm
        obtain rfl := Option.some.inj ((set_of_undeclared hf middle).symm.trans hs)
        have hc : f.content? 1 = none := by simpa [Field.isDeclared, numbers] using hf
        rw [List.filterMap_cons_none hc, List.filterMap_nil, List.append_nil]
        exact hgs
      | true =>
        obtain ⟨content, c, hc, hread, rfl⟩ := set_of_declared hf hs
        have hlast : List.Forall₂ (fun content c => Container.Retains depth content c)
            ([f].filterMap (Field.content? 1)) [c] := by
          simpa [hc] using Container.retains_of_readOnto hread
        exact List.rel_append (ih hm) hlast

end ListResponse

end Attribution.Wire
