import Attribution.Proofs.Text.Utf8
import Attribution.Proofs.Wire.Grammar
import Attribution.Wire.Container

namespace Attribution.Wire

theorem text?_textBytes (s : String) : text? (textBytes s) = some s := by
  rw [text?, textBytes, Utf8.decode_encode]
  exact congrArg some String.ofList_toList

namespace ListRequest

theorem foldlM_set (filters : List String) (r : ListRequest) :
    (filters.map fun f => bytesField 1 (textBytes f)).foldlM set r =
      some { r with filters := r.filters ++ filters } := by
  induction filters generalizing r with
  | nil => simp
  | cons f filters ih =>
    have hs : r.set (bytesField 1 (textBytes f)) = some { r with filters := r.filters ++ [f] } := by
      simp [set, bytesField, text?_textBytes]
    rw [List.map_cons, List.foldlM_cons, hs]
    simpa using ih { r with filters := r.filters ++ [f] }

theorem decode_encode {filters : List String}
    (h : ∀ f ∈ filters, (textBytes f).length < 2 ^ 31) :
    decode (encode { filters }) = some { filters } := by
  have hf : fields maxDepth (encode { filters }) =
      some (filters.map fun f => bytesField 1 (textBytes f)) := by
    refine fields_eq_some_iff.mpr ⟨?_, ?_⟩
    · simp [encode, bytesField, List.flatMap_map]
    · intro field hm
      obtain ⟨f, hf, rfl⟩ := List.mem_map.mp hm
      exact reads_bytesField (by decide) (by decide) (h f hf) maxDepth
  rw [decode, readOnto, hf]
  exact foldlM_set filters {}

end ListRequest
end Attribution.Wire
