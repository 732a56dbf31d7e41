import Attribution.Container.Record
import Attribution.Json.Access
import Attribution.Json.Reader
import Attribution.Text.Cut
import Attribution.Text.Utf8

namespace Attribution

structure SpecMount where
  source : String := ""
  destination : String := ""
  options : List String := []
  deriving DecidableEq, Repr

structure RuntimeSpec where
  mounts : List SpecMount := []
  env : List String := []
  propagation : String := ""
  deriving DecidableEq, Repr

namespace RuntimeSpec

open Json (itemsAt textAt textsAt membersAt)

/-- A mount of the specification; an item that is no object counts as an empty one. -/
def mountOf : Json → SpecMount
  | .object members =>
    ⟨textAt members "source", textAt members "destination", textsAt members "options"⟩
  | _ => {}

def ofMembers (members : List (String × Json)) : RuntimeSpec where
  mounts := (itemsAt members "mounts").map mountOf
  env := textsAt (membersAt members "process") "env"
  propagation := textAt (membersAt members "linux") "rootfsPropagation"

/-- The documents that can be read: at most 200 levels deep, numbers of at most 4300 digits, and no
surrogate without a partner. -/
def dialect : Json.Dialect := ⟨some 200, some 4300, some 4300, false⟩

/-- The specification that a text writes, if it writes an object. -/
def ofText? (cs : List Char) : Option RuntimeSpec :=
  match Json.read dialect cs with
  | .ok (.object members) => some (ofMembers members)
  | _ => none

/-- The specification in a blob, and whether the blob is malformed. No bytes are an empty one. -/
def parse (blob : List UInt8) : RuntimeSpec × Bool :=
  if blob = [] then ({}, false)
  else
    match Utf8.decode blob with
    | .error _ => ({}, true)
    | .ok cs =>
      match ofText? cs with
      | none => ({}, true)
      | some spec => (spec, false)

/-- Whether the options make the mount read-only, and the mode that the last of them sets. -/
def readOptions (options : List String) : Bool × String :=
  options.foldl (fun (readonly, mode) option =>
    if option = "ro" then (true, mode)
    else
      match Text.dropWord? "mode=".toList option.toList with
      | some value => (readonly, String.ofList value)
      | none => (readonly, mode)) (false, "")

/-- The mounts as records have them, all with the one propagation. -/
def recordMounts (spec : RuntimeSpec) : List Mount :=
  spec.mounts.map fun m =>
    let (readonly, mode) := readOptions m.options
    ⟨m.source, m.destination, mode, !readonly, spec.propagation⟩

end RuntimeSpec
end Attribution
