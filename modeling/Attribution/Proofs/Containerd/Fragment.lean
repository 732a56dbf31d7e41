import Attribution.Containerd.Inventory
import Attribution.Proofs.Text.Cut
import Attribution.Proofs.Wire.Request

namespace Attribution

def containsFragment (fragment : String) (container : Wire.Container) : Bool :=
  Text.occursIn fragment.toList container.id.toList

/-- Asked for the containers whose id contains a fragment, a runtime that replies at all lists these
containers, and only these. -/
def FiltersById (service : RuntimeService) (containers : List Wire.Container) : Prop :=
  ∀ target earlier request asked fragment response,
    Wire.ListRequest.decode request = some asked → asked.filters = ["id~=" ++ fragment] →
    Client.readReply (service target earlier request) = .ok (.ok response) →
    response.containers = containers.filter (containsFragment fragment)

namespace Client

theorem decode_fragmentRequest {fragment : String} (h : fragment.length < 2 ^ 28) :
    Wire.ListRequest.decode (fragmentRequest fragment).encode = some (fragmentRequest fragment) := by
  apply Wire.ListRequest.decode_encode
  intro f hf
  have he : f = "id~=" ++ fragment := by simpa using hf
  have hl := Utf8.length_encode_le f.toList
  have hn : f.toList.length = fragment.length + 4 := by simp [he, String.length_toList]
  rw [Wire.textBytes]
  omega

theorem call_eq_ok {service : RuntimeService} {network : Network} {client : Client}
    {request : Wire.ListRequest} {reply : Except RpcError Wire.ListResponse}
    (h : (client.call service network request).1 = .ok reply) :
    ∃ target earlier, readReply (service target earlier request.encode) = .ok reply := by
  unfold call at h
  split at h
  next => simp at h
  next timeout ht =>
    split at h
    next => exact ⟨_, _, h⟩
    next => simp at h

/-- What a client lists by a fragment are all containers that the fragment fits. -/
theorem containers_of_listByFragment {service : RuntimeService} {containers : List Wire.Container}
    {network : Network} {client : Client} {fragment : String} {response : Wire.ListResponse}
    (hs : FiltersById service containers) (hl : fragment.length < 2 ^ 28)
    (h : (client.listByFragment service network fragment).1 = .ok (.ok response)) :
    response.containers = containers.filter (containsFragment fragment) := by
  obtain ⟨target, earlier, hr⟩ := call_eq_ok h
  exact hs target earlier _ _ fragment response (decode_fragmentRequest hl) rfl hr

end Client

theorem containsFragment_of_toList {id : List Char} {container : Wire.Container}
    (h : container.id.toList = id) (n : Nat) :
    containsFragment (String.ofList (id.take n)) container = true := by
  rw [containsFragment, Text.occursIn_iff_infix, String.toList_ofList, h]
  exact (List.take_prefix n id).isInfix

namespace Inventory

theorem passes_fragment (container : Wire.Container) (fragment : String) :
    passes container ("id~=" ++ fragment) = containsFragment fragment container := by
  have hf : fragment? ("id~=" ++ fragment) = some fragment.toList := by
    simp [fragment?, Text.dropWord?]
  rw [passes, hf]
  rfl

/-- An inventory filters as a runtime does if what it replies is read as it was meant. -/
theorem filtersById {containers : List Wire.Container}
    (h : ∀ fragment, Wire.ListResponse.decode
        (Wire.ListResponse.encode { containers := containers.filter (containsFragment fragment) }) =
      some { containers := containers.filter (containsFragment fragment) }) :
    FiltersById (fun _ earlier request => answer { containers } earlier request) containers := by
  intro target earlier request asked fragment response ha hf hr
  have hselect : select containers asked.filters = containers.filter (containsFragment fragment) := by
    simp [select, hf, passes_fragment]
  have he : answer { containers } earlier request =
      respond (containers.filter (containsFragment fragment)) := by
    simp [answer, ha, hselect]
  simp only [he, respond, Client.readReply, h fragment, Except.ok.injEq] at hr
  exact hr ▸ rfl

end Inventory
end Attribution
