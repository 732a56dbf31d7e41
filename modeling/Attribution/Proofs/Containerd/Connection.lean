import Attribution.Containerd.Client

namespace Attribution

/-- The runtime answers in the wire format when it does not fail. -/
def Decodable (service : RuntimeService) : Prop :=
  ∀ target earlier request bytes, service target earlier request = .ok bytes →
    ∃ response, Wire.ListResponse.decode bytes = some response

/-- No bytes are a response that lists nothing. -/
theorem Wire.ListResponse.decode_nil : decode [] = some {} := by
  simp [decode, readOnto, fields]

namespace Channels

theorem isOpen_get (channels : Channels) (target : String) (options : List (String × OptionValue)) :
    (channels.get target options).2.1.isOpen (channels.get target options).1 = true := by
  unfold get
  split
  next channel hf =>
    have hm := List.mem_of_find?_eq_some hf
    exact List.any_eq_true.mpr ⟨channel, hm, beq_self_eq_true _⟩
  next => simp [isOpen]

theorem target_get (channels : Channels) (target : String)
    (options : List (String × OptionValue)) : (channels.get target options).1.target = target := by
  unfold get
  split
  next channel hf =>
    have hm := List.find?_some hf
    simp only [Bool.and_eq_true, beq_iff_eq] at hm
    exact hm.1
  next => rfl

end Channels

namespace Client

variable {service : RuntimeService} {network : Network} {client : Client}

/-- The client can call: its channel is open and its deadline can be written. -/
structure Live (network : Network) (client : Client) : Prop where
  opened : network.channels.isOpen client.channel = true
  deadline : (Deadline.text? client.timeoutMs).isSome = true

theorem call_channels (service : RuntimeService) (network : Network) (client : Client)
    (request : Wire.ListRequest) :
    (client.call service network request).2.channels = network.channels := by
  unfold call
  split
  next => rfl
  next => split <;> rfl

theorem readReply_succeeds {reply : Reply}
    (h : ∀ bytes, reply = .ok bytes → ∃ response, Wire.ListResponse.decode bytes = some response) :
    ∃ answer, readReply reply = .ok answer := by
  cases reply with
  | error e => exact ⟨.error e, rfl⟩
  | ok bytes =>
    obtain ⟨response, hd⟩ := h bytes rfl
    exact ⟨.ok response, by simp [readReply, hd]⟩

theorem readReply_eq_ok {reply : Reply} {response : Wire.ListResponse} :
    readReply reply = .ok (.ok response) ↔
      ∃ bytes, reply = .ok bytes ∧ Wire.ListResponse.decode bytes = some response := by
  cases reply with
  | error e => simp [readReply]
  | ok bytes => cases hd : Wire.ListResponse.decode bytes <;> simp [readReply, hd]

theorem call_succeeds (hs : Decodable service) (hl : Live network client)
    (request : Wire.ListRequest) :
    ∃ reply, (client.call service network request).1 = .ok reply := by
  obtain ⟨timeout, ht⟩ := Option.isSome_iff_exists.mp hl.deadline
  unfold call
  simp only [ht, if_pos hl.opened]
  exact readReply_succeeds fun bytes hb => hs _ _ _ bytes hb

/-- A handshake with a client that can call ends well, and the client can still call. -/
theorem handshake_succeeds (hs : Decodable service) (hl : Live network client) :
    let shaken := handshake service network client
    (∃ answer, shaken.answer = .ok answer) ∧ Live shaken.network shaken.client := by
  obtain ⟨reply, hr⟩ := call_succeeds hs hl {}
  have hc := call_channels service network client {}
  unfold handshake
  generalize client.call service network {} = result at hr hc ⊢
  obtain ⟨answer, after⟩ := result
  obtain rfl : answer = .ok reply := hr
  have hopened : after.channels.isOpen client.channel = true := hc ▸ hl.opened
  cases reply with
  | error e => exact ⟨⟨_, rfl⟩, hopened, hl.deadline⟩
  | ok response => exact ⟨⟨_, rfl⟩, hopened, hl.deadline⟩

theorem socketTarget_succeeds {socket : String} (h : socket ≠ "") :
    ∃ target, socketTarget socket = .ok target := by
  unfold socketTarget
  rw [if_neg h]
  exact ⟨_, rfl⟩

theorem connect_succeeds {socketPath : String} {timeoutMs : Int} (hs : Decodable service)
    (hn : socketPath ≠ "") (hd : (Deadline.text? timeoutMs).isSome = true) (network : Network)
    (ns : String) :
    let connection := connect service network socketPath ns timeoutMs
    ∃ client, connection.client = .ok client ∧ Live connection.network client := by
  obtain ⟨target, ht⟩ := socketTarget_succeeds hn
  have hlive : Live { network with channels := (network.channels.get target channelOptions).2.1 }
      { socketPath, channel := (network.channels.get target channelOptions).1, ns, timeoutMs } :=
    ⟨Channels.isOpen_get network.channels target channelOptions, hd⟩
  obtain ⟨⟨answer, ha⟩, hl⟩ := handshake_succeeds hs hlive
  unfold connect
  simp only [ht, ha]
  exact ⟨_, rfl, hl⟩

end Client
end Attribution
