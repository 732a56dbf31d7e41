import Attribution.Containerd.Inventory
import Attribution.Files.Tree
import Attribution.Json.Access
import Attribution.Json.Reader
import Attribution.Program.Scan
import Attribution.Settings.Load

namespace Attribution.Host

open Json

/-- The bytes that pairs of hexadecimal digits write. -/
def bytesOfHex : List Char → List UInt8
  | a :: b :: cs =>
    UInt8.ofNat (16 * (hexValue? a).getD 0 + (hexValue? b).getD 0) :: bytesOfHex cs
  | _ => []

def hexAt? (m : List (String × Json)) (key : String) : Option (List UInt8) :=
  (textAt? m key).map fun s => bytesOfHex s.toList

/-- The bytes of a specification, given in hexadecimal digits or as a text. -/
def specBytes? (m : List (String × Json)) : Option (List UInt8) :=
  (hexAt? m "spec_hex").or ((textAt? m "spec").map fun s => Utf8.encode s.toList)

def container (j : Json) : Wire.Container :=
  let m := j.members
  { id := textAt m "id"
    image := textAt m "image"
    labels := Assoc.ofPairs (pairsAt m "labels")
    spec := (specBytes? m).map fun value => { value } }

def node (j : Json) : FileTree :=
  match j with
  | .text s => .file (Utf8.encode s.toList)
  | _ =>
    let m := j.members
    match hexAt? m "hex", textAt? m "link" with
    | some bytes, _ => .file bytes
    | none, some target => .link target
    | none, none => if (flagAt? m "socket").getD false then .socket else .directory []

def files (m : List (String × Json)) : FileSystem :=
  FileTree.fileSystem (FileTree.ofPaths ((membersAt m "fs").map fun p => (p.1, node p.2)))

/-- A reply that was written down; null leaves the reply to the containers. -/
def scripted (j : Json) : Option Scripted :=
  let m := j.members
  match present? m "containers", hexAt? m "hex", textAt? m "code", textAt? m "message" with
  | some cs, _, _, _ => some (.containers (cs.items.map container))
  | none, some bytes, _, _ => some (.bytes bytes)
  | none, none, some code, _ => some (.error (.status code (textAt? m "details")))
  | none, none, none, some message => some (.error (.plain message))
  | none, none, none, none => none

def inventory (j : Json) : Inventory :=
  ⟨(itemsAt j.members "containers").map container, (itemsAt j.members "script").map scripted⟩

def service (m : List (String × Json)) : RuntimeService :=
  Inventory.service (Assoc.ofPairs ((membersAt m "servers").map fun p => (p.1, inventory p.2)))

/-- The settings of a host that nothing else configures. -/
def settings (m : List (String × Json)) : Except SettingsError Settings :=
  Settings.load [] none (membersAt m "config")

/-- What a run on the host finds around it. -/
def surroundings (m : List (String × Json)) : Except SettingsError Surroundings :=
  (settings m).map fun settings =>
    ⟨settings, files m, service m, (textAt? m "hostname").getD "node"⟩

/-- The documents that a description may be written in. -/
def dialect : Dialect := ⟨none, none, none, true⟩

/-- The members of a description. -/
def read? (line : String) : Option (List (String × Json)) :=
  (read dialect line.toList).toOption.map members

end Attribution.Host
