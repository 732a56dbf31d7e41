import Attribution.Proofs.Containerd.Connection
import Attribution.Proofs.Containerd.Deadline
import Attribution.Settings.Basic
import Mathlib.Tactic.ByContra

namespace Attribution

structure IsListing (settings : Settings) (call : Call) : Prop where
  method : call.method = "/containerd.services.containers.v1.Containers/List"
  timeout : Deadline.text? settings.runtimeTimeoutMs = some call.timeout
  /-- The deadline shows every millisecond, unless it is a hundred thousand years away. -/
  decimal : ∀ n : Nat, settings.runtimeTimeoutMs = n → n < 2 ^ 52 →
    call.timeout = Deadline.decimal n
  metadata : call.metadata = [("containerd-namespace", settings.containerdNamespace)]

namespace Network

/-- How often a target was called. -/
def asked (network : Network) (target : String) : Nat :=
  (network.calls.filter fun c => c.target == target).length

/-- What was called stays called, and every further call is a listing. -/
def Lists (settings : Settings) (before behind : Network) : Prop :=
  ∃ made, behind.calls = before.calls ++ made ∧ ∀ call ∈ made, IsListing settings call

variable {settings : Settings} {first middle last : Network}

theorem Lists.of_calls_eq (h : last.calls = first.calls) : Lists settings first last :=
  ⟨[], by simp [h], by simp⟩

theorem Lists.trans (h : Lists settings first middle) (h' : Lists settings middle last) :
    Lists settings first last := by
  obtain ⟨made, hc, hm⟩ := h
  obtain ⟨later, hc', hm'⟩ := h'
  refine ⟨made ++ later, by rw [hc', hc, List.append_assoc], ?_⟩
  intro call hmem
  rcases List.mem_append.mp hmem with hin | hin
  · exact hm call hin
  · exact hm' call hin

end Network

namespace Client

variable {service : RuntimeService} {settings : Settings} {network : Network} {client : Client}
  {request : Wire.ListRequest} {reply : Except RpcError Wire.ListResponse}

structure Follows (client : Client) (settings : Settings) : Prop where
  ns : client.ns = settings.containerdNamespace
  timeoutMs : client.timeoutMs = settings.runtimeTimeoutMs

theorem isListing_callOf (hf : client.Follows settings) {timeout : String}
    (ht : Deadline.text? client.timeoutMs = some timeout) (bytes : Wire.Bytes) :
    IsListing settings (client.callOf bytes timeout) where
  method := rfl
  timeout := by rw [← hf.timeoutMs, ht]; rfl
  decimal n hn hlt := by
    rw [hf.timeoutMs, hn, Deadline.text?_of_lt hlt] at ht
    exact (Option.some.inj ht).symm
  metadata := by rw [← hf.ns]; rfl

/-- What the runtime makes of a request of the client now. -/
def replyTo (client : Client) (service : RuntimeService) (network : Network)
    (request : Wire.ListRequest) : Reply :=
  service client.channel.target (network.asked client.channel.target) request.encode

theorem call_of_live (hl : Live network client) (service : RuntimeService)
    (request : Wire.ListRequest) :
    ∃ timeout, Deadline.text? client.timeoutMs = some timeout ∧
      client.call service network request = (readReply (client.replyTo service network request),
        { network with calls := network.calls ++ [client.callOf request.encode timeout] }) := by
  obtain ⟨timeout, ht⟩ := Option.isSome_iff_exists.mp hl.deadline
  refine ⟨timeout, ht, ?_⟩
  unfold call
  simp only [ht, if_pos hl.opened]
  rfl

theorem listByFragment_eq (hl : Live network client) (fragment : String) :
    (client.listByFragment service network fragment).1 =
      readReply (client.replyTo service network (fragmentRequest fragment)) := by
  obtain ⟨timeout, _, hc⟩ := call_of_live hl service (fragmentRequest fragment)
  rw [listByFragment, hc]

theorem calls_call (hl : Live network client) (service : RuntimeService)
    (request : Wire.ListRequest) :
    ∃ timeout, Deadline.text? client.timeoutMs = some timeout ∧
      (client.call service network request).2.calls =
        network.calls ++ [client.callOf request.encode timeout] := by
  obtain ⟨timeout, ht, hc⟩ := call_of_live hl service request
  exact ⟨timeout, ht, by rw [hc]⟩

/-- A handshake over an open channel is one call, and it only changes the state of the client. -/
theorem handshake_of_live (hs : Decodable service) (hl : Live network client) :
    ∃ timeout answered, Deadline.text? client.timeoutMs = some timeout ∧
      (answered = true ↔ ∃ bytes, client.replyTo service network {} = .ok bytes) ∧
      ∃ log, handshake service network client =
        ⟨.ok { client with state := client.state.next answered }.isOk,
          { client with state := client.state.next answered },
          { network with calls := network.calls ++ [client.callOf [] timeout] }, log⟩ := by
  obtain ⟨timeout, ht, hc⟩ := call_of_live hl service {}
  unfold handshake
  rw [hc]
  cases hr : client.replyTo service network {} with
  | error e => exact ⟨timeout, false, ht, by simp, _, rfl⟩
  | ok bytes =>
    obtain ⟨response, hd⟩ := hs _ _ _ bytes hr
    simp only [readReply, hd]
    exact ⟨timeout, true, ht, by simp, _, rfl⟩

theorem call_of_not_live (h : ¬Live network client) (service : RuntimeService)
    (request : Wire.ListRequest) :
    ∃ fault, client.call service network request = (.error fault, network) := by
  unfold call
  split
  next => exact ⟨_, rfl⟩
  next timeout ht =>
    have hclosed : ¬network.channels.isOpen client.channel = true := by
      intro ho
      exact h ⟨ho, by simp [ht]⟩
    exact ⟨_, by rw [if_neg hclosed]⟩

theorem live_of_call (h : (client.call service network request).1 = .ok reply) :
    Live network client := by
  by_contra hn
  obtain ⟨fault, hc⟩ := call_of_not_live hn service request
  simp [hc] at h

theorem lists_call (hf : client.Follows settings) (service : RuntimeService) (network : Network)
    (request : Wire.ListRequest) :
    network.Lists settings (client.call service network request).2 := by
  by_cases hl : Live network client
  · obtain ⟨timeout, ht, hc⟩ := calls_call hl service request
    refine ⟨_, hc, ?_⟩
    intro call hm
    obtain rfl := List.mem_singleton.mp hm
    exact isListing_callOf hf ht request.encode
  · obtain ⟨fault, hc⟩ := call_of_not_live hl service request
    exact .of_calls_eq (by rw [hc])

theorem handshake_network (service : RuntimeService) (network : Network) (client : Client) :
    (handshake service network client).network = (client.call service network {}).2 := by
  unfold handshake
  split
  next hc => rw [hc]
  next hc => rw [hc]
  next hc => rw [hc]

theorem handshake_client (service : RuntimeService) (network : Network) (client : Client) :
    ∃ state, (handshake service network client).client = { client with state } := by
  unfold handshake
  split
  next => exact ⟨client.state, rfl⟩
  next => exact ⟨_, rfl⟩
  next => exact ⟨_, rfl⟩

theorem handshake_answer {answer : Bool}
    (h : (handshake service network client).answer = .ok answer) :
    Live network client ∧
      ∃ state, (handshake service network client).client = { client with state } := by
  refine ⟨?_, handshake_client service network client⟩
  unfold handshake at h
  split at h
  next => simp at h
  next e behind hc => exact live_of_call (congrArg Prod.fst hc)
  next response behind hc => exact live_of_call (congrArg Prod.fst hc)

variable {socketPath : String}

theorem lists_connect (settings : Settings) (service : RuntimeService) (network : Network)
    (socketPath : String) :
    network.Lists settings (connect service network socketPath settings.containerdNamespace
      settings.runtimeTimeoutMs).network := by
  unfold connect
  split
  next => exact .of_calls_eq rfl
  next target ht =>
    obtain ⟨channel, channels, opened⟩ := network.channels.get target channelOptions
    dsimp only
    rw [handshake_network]
    have hf : Follows
        { socketPath, channel, ns := settings.containerdNamespace
          timeoutMs := settings.runtimeTimeoutMs } settings := ⟨rfl, rfl⟩
    obtain ⟨made, hc, hm⟩ := lists_call hf service { network with channels } {}
    exact ⟨made, hc, hm⟩

/-- A client that was made can call, and keeps to the settings that it was made under. -/
theorem connect_client
    (h : (connect service network socketPath settings.containerdNamespace
      settings.runtimeTimeoutMs).client = .ok client) :
    client.Follows settings ∧
      Live (connect service network socketPath settings.containerdNamespace
        settings.runtimeTimeoutMs).network client := by
  unfold connect at h ⊢
  split at h
  next => simp at h
  next target ht =>
    generalize network.channels.get target channelOptions = got at h ⊢
    obtain ⟨channel, channels, opened⟩ := got
    simp only at h ⊢
    generalize hs : handshake service { network with channels }
      { socketPath, channel, ns := settings.containerdNamespace
        timeoutMs := settings.runtimeTimeoutMs } = shaken at h ⊢
    cases ha : shaken.answer with
    | error fault => simp [ha, Except.map] at h
    | ok answer =>
      have hc : shaken.client = client := by simpa [ha, Except.map] using h
      subst hs
      -- The handshake changes only the state of the client, and opens or closes no channel.
      obtain ⟨hl, state, he⟩ := handshake_answer ha
      rw [he] at hc
      subst hc
      refine ⟨⟨rfl, rfl⟩, ?_, hl.deadline⟩
      rw [handshake_network, call_channels]
      exact hl.opened

end Client
end Attribution
