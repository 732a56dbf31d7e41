import Attribution.Text.Cut

namespace Attribution

structure ImageRef where
  repo : String
  name : String
  tag : String
  deriving DecidableEq, Repr

namespace ImageRef

/-- The tag follows the first colon, the name the last slash before it. -/
def parse (ref : String) : ImageRef :=
  let (path, tag) := Text.cutFirst ':' ref.toList
  let tag := String.ofList (tag.getD [])
  match Text.cutLast? '/' path with
  | none => ⟨"", String.ofList path, tag⟩
  | some (repo, name) => ⟨String.ofList repo, String.ofList name, tag⟩

end ImageRef
end Attribution
