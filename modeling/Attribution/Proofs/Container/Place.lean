import Attribution.Container.Record
import Attribution.Proofs.Json.Path

namespace Attribution

open Json (Step)

/-- The places of a specification that records are made from, and the others at its top. -/
inductive SpecPlace where
  | process
  | env
  | linux
  | propagation
  | mounts
  | mount (index : Nat)
  | source (index : Nat)
  | destination (index : Nat)
  | options (index : Nat)
  | other (name : String) (h : name ∉ ["process", "linux", "mounts"])

namespace SpecPlace

def path : SpecPlace → List Step
  | .process => [.key "process"]
  | .env => [.key "process", .key "env"]
  | .linux => [.key "linux"]
  | .propagation => [.key "linux", .key "rootfsPropagation"]
  | .mounts => [.key "mounts"]
  | .mount i => [.key "mounts", .item i]
  | .source i => [.key "mounts", .item i, .key "source"]
  | .destination i => [.key "mounts", .item i, .key "destination"]
  | .options i => [.key "mounts", .item i, .key "options"]
  | .other name _ => [.key name]

/-- A place inside an entry of the mounts: which entry, and the name there. -/
def entryPart? : SpecPlace → Option (Nat × String)
  | .source i => some (i, "source")
  | .destination i => some (i, "destination")
  | .options i => some (i, "options")
  | _ => none

theorem path_of_entryPart? {place : SpecPlace} {i : Nat} {key : String}
    (h : place.entryPart? = some (i, key)) : place.path = [.key "mounts", .item i, .key key] := by
  cases place with
  | source | destination | options =>
    obtain ⟨rfl, rfl⟩ := Prod.mk.inj (Option.some.inj h)
    rfl
  | _ => simp [entryPart?] at h

/-- A mount without what the place decides about it. -/
def blot : SpecPlace → Mount → Mount
  | .source _, m => { m with source := "" }
  | .destination _, m => { m with destination := "" }
  | .options _, m => { m with mode := "", readWrite := true }
  | .linux, m | .propagation, m => { m with propagation := "" }
  | .mounts, _ | .mount _, _ => ⟨"", "", "", true, ""⟩
  | .process, m | .env, m | .other _ _, m => m

/-- A record without what the place decides about it. -/
def hide (place : SpecPlace) (r : ContainerRecord) : ContainerRecord :=
  match place with
  | .process | .env => { r with env := [] }
  | .linux | .propagation => { r with mounts := r.mounts.map place.blot }
  | .mounts => { r with mounts := [] }
  | .mount i | .source i | .destination i | .options i =>
    { r with mounts := r.mounts.modify i place.blot }
  | .other _ _ => r

/-- Whether a value has not the form that is expected in the place. An entry of the mounts may have
any form, and so may what is never looked at. -/
def Unfit : SpecPlace → Json → Prop
  | .process, j | .linux, j => ∀ members, j ≠ .object members
  | .env, j | .mounts, j | .options _, j => ∀ items, j ≠ .array items
  | .propagation, j | .source _, j | .destination _, j => ∀ s, j ≠ .text s
  | .mount _, _ | .other _ _, _ => False

/-- The places that hold a list of texts. -/
def IsTexts : SpecPlace → Prop
  | .env | .options _ => True
  | _ => False

/-- Whether two values, or a value and none, say the same in a place. -/
def Alike : SpecPlace → Option Json → Option Json → Prop
  | .process, a, b | .linux, a, b => (a.map Json.members).getD [] = (b.map Json.members).getD []
  | .mounts, a, b => (a.map Json.items).getD [] = (b.map Json.items).getD []
  | .env, a, b | .options _, a, b =>
    ((a.map Json.items).getD []).filterMap Json.text? =
      ((b.map Json.items).getD []).filterMap Json.text?
  | .propagation, a, b | .source _, a, b | .destination _, a, b =>
    (a.bind Json.text?).getD "" = (b.bind Json.text?).getD ""
  | .mount _, a, b | .other _ _, a, b => a = b

/-- What has not the expected form says what nothing says. -/
theorem alike_of_unfit {place : SpecPlace} {j : Json} (h : place.Unfit j) :
    Alike place none (some j) := by
  have hmembers : (∀ members, j ≠ .object members) → [] = j.members := by
    intro h
    cases j with
    | object members => exact absurd rfl (h members)
    | _ => rfl
  have hitems : (∀ items, j ≠ .array items) → [] = j.items := by
    intro h
    cases j with
    | array items => exact absurd rfl (h items)
    | _ => rfl
  have htext : (∀ s, j ≠ .text s) → none = j.text? := by
    intro h
    cases j with
    | text s => exact absurd rfl (h s)
    | _ => rfl
  cases place with
  | process | linux => exact hmembers h
  | mounts => exact hitems h
  | env | options => exact congrArg (List.filterMap Json.text?) (hitems h)
  | propagation | source | destination => exact congrArg (Option.getD · "") (htext h)
  | mount | other => exact h.elim

/-- An item that is no text says nothing in a list of texts. -/
theorem alike_of_not_text {place : SpecPlace} (hp : place.IsTexts) (before after : List Json)
    {j : Json} (h : ∀ s, j ≠ .text s) :
    Alike place (some (.array (before ++ after))) (some (.array (before ++ j :: after))) := by
  have ht : Json.text? j = none := by
    cases j with
    | text s => exact absurd rfl (h s)
    | _ => rfl
  cases place with
  | env => simp [Alike, Json.items, List.filterMap_append, ht]
  | options i => simp [Alike, Json.items, List.filterMap_append, ht]
  | _ => exact hp.elim

end SpecPlace
end Attribution
