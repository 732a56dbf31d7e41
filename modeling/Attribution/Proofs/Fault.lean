import Attribution.Fault
import Mathlib.Data.List.Forall2

namespace Attribution

variable {α β : Type}

/-- No fault ends the operation while `safe` holds, and its result satisfies `post`. -/
structure Contract (safe : Prop) (x : Except Fault α) (post : α → Prop) : Prop where
  succeeds : safe → ∃ a, x = .ok a
  result : ∀ a, x = .ok a → post a

namespace Contract

variable {safe safer : Prop} {x : Except Fault α} {mid : α → Prop} {post : β → Prop}

theorem ok {b : β} (h : post b) : Contract safe (.ok b) post :=
  ⟨fun _ => ⟨b, rfl⟩, fun _ hb => Except.ok.inj hb ▸ h⟩

theorem mono (hx : Contract safe x mid) (h : safer → safe) : Contract safer x mid :=
  ⟨fun hs => hx.succeeds (h hs), hx.result⟩

theorem bind {f : α → Except Fault β} (hx : Contract safe x mid)
    (hf : ∀ a, mid a → Contract safe (f a) post) : Contract safe (x >>= f) post := by
  cases x with
  | error fault =>
    refine ⟨fun hs => ?_, fun _ hb => by cases hb⟩
    obtain ⟨a, ha⟩ := hx.succeeds hs
    cases ha
  | ok a => exact hf a (hx.result a rfl)

theorem map {f : α → β} (hx : Contract safe x mid) (hf : ∀ a, mid a → post (f a)) :
    Contract safe (x.map f) post := by
  cases x with
  | error fault =>
    refine ⟨fun hs => ?_, fun _ hb => by cases hb⟩
    obtain ⟨a, ha⟩ := hx.succeeds hs
    cases ha
  | ok a => exact ok (hf a (hx.result a rfl))

end Contract

section

variable {ε : Type} {f : α → Except ε β} {xs : List α} {ys : List β}

theorem mapM_eq_ok_iff : xs.mapM f = .ok ys ↔ List.Forall₂ (fun x y => f x = .ok y) xs ys := by
  induction xs generalizing ys with
  | nil => cases ys <;> simp [pure, Except.pure]
  | cons x xs ih =>
    rw [List.mapM_cons]
    cases hx : f x with
    | error e => cases ys <;> simp [hx, bind, Except.bind]
    | ok y =>
      cases hm : xs.mapM f with
      | error e => cases ys <;> simp [hx, hm, ← ih, bind, Except.bind]
      | ok found => cases ys <;> simp [hx, hm, ← ih, bind, Except.bind, pure, Except.pure]

theorem exists_of_mem_mapM {y : β} (h : xs.mapM f = .ok ys) (hy : y ∈ ys) :
    ∃ x ∈ xs, f x = .ok y := by
  have hall := mapM_eq_ok_iff.mp h
  clear h
  induction hall with
  | nil => simp at hy
  | cons hx _ ih =>
    rcases List.mem_cons.mp hy with rfl | hy
    · exact ⟨_, List.mem_cons_self, hx⟩
    · obtain ⟨x, hm, hf⟩ := ih hy
      exact ⟨x, List.mem_cons_of_mem _ hm, hf⟩

theorem mapM_id_eq_ok_iff {xs : List (Except ε β)} : xs.mapM id = .ok ys ↔ xs = ys.map .ok := by
  rw [mapM_eq_ok_iff, ← List.forall₂_eq_eq_eq, List.forall₂_map_right_iff]
  rfl

theorem filterMap_eq_map_ok {f : α → Option (Except ε β)}
    (h : ∀ x ∈ xs, ∀ e, f x ≠ some (.error e)) :
    xs.filterMap f = (xs.filterMap fun x => (f x).bind Except.toOption).map .ok := by
  induction xs with
  | nil => rfl
  | cons x xs ih =>
    have hlater := ih fun y hy => h y (List.mem_cons_of_mem x hy)
    cases hx : f x with
    | none => simp [hx, hlater]
    | some r =>
      cases r with
      | error e => exact (h x (by simp) e hx).elim
      | ok b => simp [hx, hlater, Except.toOption]

end

end Attribution
