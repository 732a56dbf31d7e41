import Attribution.Container.Image
import Attribution.Container.Spec
import Attribution.Log.Line
import Attribution.Wire.Container

namespace Attribution

/-- The labels whose values have at most `most` characters. -/
def keepLabels (labels : Assoc String String) (most : Int) : Assoc String String :=
  labels.filter fun l => decide ((l.2.length : Int) ≤ most)

namespace ContainerRecord

/-- The bytes of a container's specification. -/
def specBlob (container : Wire.Container) : List UInt8 :=
  match container.spec with
  | none => []
  | some spec => spec.value

/-- The record of a container that was found under an id. -/
def ofContainer (container : Wire.Container) (id : String) (labelMax : Int) : ContainerRecord :=
  let image := ImageRef.parse container.image
  let spec := (RuntimeSpec.parse (specBlob container)).1
  { id
    fullId := container.id
    image := image.name
    imageRepo := image.repo
    imageTag := image.tag
    labels := keepLabels container.labels labelMax
    mounts := spec.recordMounts
    env := spec.env }

/-- The line that is logged for a specification that cannot be read. -/
def specWarnings (container : Wire.Container) : List LogLine :=
  if (RuntimeSpec.parse (specBlob container)).2 then
    [{ Log.debug "normalize" "Ignoring malformed container spec: " with
        spoilt := some (specBlob container) }]
  else []

end ContainerRecord
end Attribution
