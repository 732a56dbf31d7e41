import Attribution.Proofs.Containerd.Fragment
import Attribution.Proofs.Containerd.Connection
import Attribution.Proofs.Wire.RoundTrip
import Mathlib.Data.List.Flatten

namespace Attribution.Inventory

open Wire (ListResponse)

/-- Containers without labels, as they are put together, that fit into one message. -/
structure Plain (containers : List Wire.Container) : Prop where
  made : ∀ c ∈ containers, c.Made
  labels : ∀ c ∈ containers, c.labels = []
  short : (ListResponse.encode { containers }).length < Wire.maxSize

variable {containers listed : List Wire.Container}

/-- Whichever of the containers are listed, they are read as they were meant. -/
theorem Plain.decode_encode (h : Plain containers) (hl : listed.Sublist containers) :
    ListResponse.decode (ListResponse.encode { containers := listed }) =
      some { containers := listed } := by
  have hmade : ListResponse.Made { containers := listed } :=
    ⟨fun c hc => h.made c (hl.subset hc), rfl⟩
  have hshort : (ListResponse.encode { containers := listed }).length < Wire.maxSize := by
    have hbytes := (hl.flatMap fun c => Wire.writeBytes 1 c.encode).length_le
    have hmost := h.short
    simp only [ListResponse.encode, List.append_nil] at hmost ⊢
    omega
  have hsorted : listed.map Wire.Container.sorted = listed := by
    conv_rhs => rw [← List.map_id listed]
    apply List.map_congr_left
    intro c hc
    have hlabels := h.labels c (hl.subset hc)
    rw [Wire.Container.sorted, hlabels, Wire.sortLabels, List.mergeSort_nil, ← hlabels]
    rfl
  rw [ListResponse.decode_encode (hmade.sound 97) hshort, ListResponse.sorted, hsorted]

theorem Plain.decodable (h : Plain containers) :
    Decodable fun _ earlier request => answer { containers } earlier request := by
  intro target earlier request bytes ha
  simp only [answer, List.getElem?_nil] at ha
  split at ha
  next => cases ha
  next r _ =>
    obtain rfl := Except.ok.inj ha
    exact ⟨_, h.decode_encode List.filter_sublist⟩

theorem Plain.filtersById (h : Plain containers) :
    FiltersById (fun _ earlier request => answer { containers } earlier request) containers :=
  Inventory.filtersById fun _ => h.decode_encode List.filter_sublist

theorem made (id image : String) : Wire.Container.Made { id, image } where
  labels := List.nodup_nil
  runtime := by simp
  spec := by simp
  unknown := rfl

end Attribution.Inventory
