import Attribution.Container.Image
import Attribution.Proofs.Text.Written

namespace Attribution

namespace ImageRef

variable {path name : String}

theorem parse_tagged (h : ':' ∉ path.toList) (tag : String) :
    parse (path ++ ":" ++ tag) = { parse path with tag } := by
  have hcut : Text.cutFirst ':' (path ++ ":" ++ tag).toList = (path.toList, some tag.toList) := by
    rw [String.append_assoc, String.toList_append, String.toList_append]
    exact Text.cutFirst_append h tag.toList
  simp only [parse, hcut, Text.cutFirst_of_notMem h, Option.getD_some, String.ofList_toList]
  split
  all_goals rfl

theorem parse_of_noSlash (hc : ':' ∉ name.toList) (hs : '/' ∉ name.toList) :
    parse name = ⟨"", name, ""⟩ := by
  simp only [parse, Text.cutFirst_of_notMem hc, Text.cutLast?_of_notMem hs, Option.getD_none,
    String.ofList_toList, String.ofList_nil]

end ImageRef

/-- Some text without the marks that divide references. -/
structure IsRefPart (s : String) : Prop where
  ne_empty : s ≠ ""
  noSlash : '/' ∉ s.toList
  noColon : ':' ∉ s.toList

/-- A reference to an image in a registry that is asked at a port. -/
structure RegistryRef where
  host : String
  port : String
  path : List String
  name : String
  isPart_host : IsRefPart host
  isDigit_port : port ≠ "" ∧ ∀ c ∈ port.toList, c.isDigit = true
  isPart_path : ∀ part ∈ path, IsRefPart part
  isPart_name : IsRefPart name

namespace RegistryRef

/-- The port and what follows it, up to the name. -/
def place (r : RegistryRef) : String := "/".intercalate (r.port :: (r.path ++ [r.name]))

/-- The reference as it is written without a tag. -/
def text (r : RegistryRef) : String := r.host ++ ":" ++ r.place

/-- The host is taken for the name of an image without a repository, its port and all that follows
for the tag. -/
theorem parse_cuts_at_port (r : RegistryRef) :
    ImageRef.parse r.text = ⟨"", r.host, r.place⟩ ∧
      ∀ tag, ImageRef.parse (r.text ++ ":" ++ tag) = ⟨"", r.host, r.place ++ ":" ++ tag⟩ := by
  have hcolon := r.isPart_host.noColon
  have hhost := ImageRef.parse_of_noSlash hcolon r.isPart_host.noSlash
  refine ⟨?_, ?_⟩
  · rw [text, ImageRef.parse_tagged hcolon, hhost]
  · intro tag
    have hsplit : r.text ++ ":" ++ tag = r.host ++ ":" ++ (r.place ++ ":" ++ tag) := by
      simp only [text, String.append_assoc]
    rw [hsplit, ImageRef.parse_tagged hcolon, hhost]

def localImage : RegistryRef where
  host := "localhost"
  port := "5000"
  path := ["library"]
  name := "nginx"
  isPart_host := ⟨by decide, by decide, by decide⟩
  isDigit_port := ⟨by decide, List.all_eq_true.mp (by decide)⟩
  isPart_path := by simpa using ⟨by decide, by decide, by decide⟩
  isPart_name := ⟨by decide, by decide, by decide⟩

/-- Neither repository nor name nor tag is what the reference says. -/
theorem port_begins_tag :
    localImage.text ++ ":1.25" = "localhost:5000/library/nginx:1.25" ∧
      ImageRef.parse (localImage.text ++ ":1.25") ≠
        ⟨localImage.host ++ ":5000/library", localImage.name, "1.25"⟩ ∧
      ImageRef.parse localImage.text ≠ ⟨localImage.host ++ ":5000/library", localImage.name, ""⟩ := by
  decide +kernel

end RegistryRef
end Attribution
