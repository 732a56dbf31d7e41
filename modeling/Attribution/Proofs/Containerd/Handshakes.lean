import Attribution.Proofs.Containerd.Clientele

namespace Attribution

namespace ClientState

/-- The state after handshakes that got these replies. -/
def after (state : ClientState) (replies : List Reply) : ClientState :=
  replies.foldl (fun state reply => state.next reply.isOk) state

theorem next_ne_unbound (state : ClientState) (answered : Bool) : state.next answered ≠ .unbound := by
  cases state <;> cases answered <;> decide

theorem next_eq_bound_iff (state : ClientState) (answered : Bool) :
    state.next answered = .bound ↔ answered = true ∧ state ≠ .broken := by
  cases state <;> cases answered <;> decide

theorem broken_after (replies : List Reply) : broken.after replies = .broken := by
  induction replies with
  | nil => rfl
  | cons reply replies ih =>
    have hn : broken.next reply.isOk = .broken := by cases reply.isOk <;> rfl
    rw [after, List.foldl_cons, hn]
    exact ih

/-- A state in which a client ever was is kept while handshakes are answered, and not else. -/
theorem after_eq_bound_iff {state : ClientState} (h : state ≠ .unbound) (replies : List Reply) :
    state.after replies ≠ .unbound ∧
      (state.after replies = .bound ↔ state = .bound ∧ ∀ reply ∈ replies, reply.isOk = true) := by
  induction replies generalizing state with
  | nil => simpa [after] using h
  | cons reply replies ih =>
    obtain ⟨hs, hb⟩ := ih (next_ne_unbound state reply.isOk)
    refine ⟨hs, hb.trans ?_⟩
    rw [next_eq_bound_iff, List.forall_mem_cons]
    cases state <;> simp_all

end ClientState

theorem isOk_reply_iff {reply : Reply} : reply.isOk = true ↔ ∃ bytes, reply = .ok bytes := by
  cases reply <;> simp [Except.isOk, Except.toBool]

namespace Client

variable {service : RuntimeService} {network : Network} {client : Client}

theorem handshake_eq (hs : Decodable service) (hl : Live network client) :
    (handshake service network client).client =
        { client with state := client.state.next (client.replyTo service network {}).isOk } ∧
      (handshake service network client).answer =
        .ok (handshake service network client).client.isOk := by
  obtain ⟨timeout, answered, _, ha, log, he⟩ := handshake_of_live hs hl
  have hanswered : answered = (client.replyTo service network {}).isOk := by
    rw [Bool.eq_iff_iff, ha, isOk_reply_iff]
  rw [he, hanswered]
  exact ⟨rfl, rfl⟩

theorem state_connect (hs : Decodable service) {socketPath ns : String} {timeoutMs : Int}
    (h : (connect service network socketPath ns timeoutMs).client = .ok client) :
    client.state = ClientState.unbound.after [client.replyTo service network {}] := by
  unfold connect at h
  split at h
  next => cases h
  next target ht =>
    generalize network.channels.get target channelOptions = got at h
    obtain ⟨channel, channels, opened⟩ := got
    dsimp only at h
    cases ha : (handshake service { network with channels }
      { socketPath, channel, ns, timeoutMs }).answer with
    | error fault => simp [ha, Except.map] at h
    | ok answer =>
      obtain ⟨he, _⟩ := handshake_eq hs (handshake_answer ha).1
      rw [ha] at h
      obtain rfl := Except.ok.inj h
      rw [he]
      rfl

end Client

namespace Clientele

variable {service : RuntimeService} {s : Clientele} {deed : Deed} {deeds : List Deed} {n : Nat}
  {client : Client}

/-- What the runtime replies to client `n` if the deed is a handshake of it. -/
def handshakeReply (service : RuntimeService) (s : Clientele) (n : Nat) (deed : Deed) : List Reply :=
  if deed = .handshake n then
    s.clients[n]?.toList.map fun client => client.replyTo service s.network {}
  else []

/-- What the runtime replies to the handshakes of client `n`, in order. -/
def handshakeReplies (service : RuntimeService) (s : Clientele) (n : Nat) : List Deed → List Reply
  | [] => []
  | deed :: deeds =>
    handshakeReply service s n deed ++ handshakeReplies service (step service s deed) n deeds

theorem state_step (hs : Decodable service) (h : s.clients[n]? = some client)
    (hl : Client.Live s.network client) (deed : Deed) :
    (step service s deed).clients[n]? =
      some { client with state := client.state.after (handshakeReply service s n deed) } := by
  rw [clients_step service deed h, handshakeReply]
  split
  next => rw [(Client.handshake_eq hs hl).1, h]; rfl
  next => rfl

theorem live_step (hl : Client.Live s.network client) (h : deed ≠ .closeAll) (state : ClientState) :
    Client.Live (step service s deed).network { client with state } :=
  ⟨Channels.Open.grows hl.opened (grows_step h), hl.deadline⟩

theorem state_run (hs : Decodable service) (h : s.clients[n]? = some client)
    (hl : Client.Live s.network client) (hno : Deed.closeAll ∉ deeds) :
    (run service s deeds).clients[n]? =
        some { client with state := client.state.after (handshakeReplies service s n deeds) } ∧
      Client.Live (run service s deeds).network
        { client with state := client.state.after (handshakeReplies service s n deeds) } := by
  induction deeds generalizing s client with
  | nil => exact ⟨h, hl⟩
  | cons deed deeds ih =>
    obtain ⟨hne, hno⟩ := not_or.mp (mt List.mem_cons.mpr hno)
    have hrest := ih (state_step hs h hl deed) (live_step hl (Ne.symm hne) _) hno
    rw [handshakeReplies, ClientState.after, List.foldl_append]
    exact hrest

/-- Where client `n` stands when its handshakes, from the one that made it on, got these replies. -/
structure Stands (service : RuntimeService) (s : Clientele) (n : Nat) (client : Client)
    (replies : List Reply) : Prop where
  present : s.clients[n]? = some client
  settled : client.state ≠ .unbound
  /-- Bound is a client whose handshakes were all answered. -/
  bound : client.state = .bound ↔ ∀ reply ∈ replies, ∃ bytes, reply = .ok bytes
  /-- The next handshake says whether the client is bound behind it. -/
  handshake : ∃ next, (step service s (.handshake n)).clients[n]? = some next ∧
    (Client.handshake service s.network client).answer = .ok next.isOk
  /-- A client that is broken stays so, and its handshakes fail even if they are answered. -/
  broken : client.state = .broken → ∀ deeds, Deed.closeAll ∉ deeds →
    ∃ later, (run service s deeds).clients[n]? = some later ∧ later.state = .broken ∧
      (Client.handshake service (run service s deeds).network later).answer = .ok false
  /-- Listing changes no client. -/
  unmoved : ∀ fragment, (step service s (.list n fragment)).clients = s.clients
  /-- Listing brings the response that the runtime gives, or its error, in every state. -/
  listed : ∀ fragment,
    (∀ bytes response,
      client.replyTo service s.network (Client.fragmentRequest fragment) = .ok bytes →
      Wire.ListResponse.decode bytes = some response →
      (client.listByFragment service s.network fragment).1 = .ok (.ok response)) ∧
    ∀ e, client.replyTo service s.network (Client.fragmentRequest fragment) = .error e →
      (client.listByFragment service s.network fragment).1 = .ok (.error e)

theorem stands_of_state {first : Reply} {others : List Reply} (hs : Decodable service)
    (h : s.clients[n]? = some client) (hl : Client.Live s.network client)
    (hr : client.state = ClientState.unbound.after (first :: others)) :
    Stands service s n client (first :: others) := by
  obtain ⟨hsettled, hbound⟩ := ClientState.after_eq_bound_iff
    (ClientState.next_ne_unbound .unbound first.isOk) others
  refine ⟨h, fun hu => hsettled (hr ▸ hu), ?_, ?_, ?_, ?_, ?_⟩
  · have hall : (∀ reply ∈ first :: others, reply.isOk = true) ↔
        ClientState.unbound.next first.isOk = .bound ∧ ∀ reply ∈ others, reply.isOk = true := by
      rw [List.forall_mem_cons, ClientState.next_eq_bound_iff]
      simp
    simp only [← isOk_reply_iff, hall, hr]
    exact hbound
  · exact ⟨_, by rw [clients_step service _ h, if_pos rfl], (Client.handshake_eq hs hl).2⟩
  · intro hb deeds hno
    obtain ⟨hlater, hlive⟩ := state_run hs h hl hno
    rw [hb, ClientState.broken_after] at hlater hlive
    refine ⟨_, hlater, rfl, ?_⟩
    obtain ⟨hnext, hanswer⟩ := Client.handshake_eq hs hlive
    rw [hanswer, hnext]
    exact congrArg Except.ok (by cases (Client.replyTo _ _ _ _).isOk <;> rfl)
  · intro fragment
    simp only [step, h]
  · intro fragment
    rw [Client.listByFragment_eq hl]
    refine ⟨fun bytes response hb hd => ?_, fun e he => by rw [he]; rfl⟩
    simp only [hb, Client.readReply, hd]

/-- A client can be made at any time for a socket with a name and a time limit that can be waited for.
From then on, for as long as no channel is closed, its state is the history of its handshakes. -/
theorem stands_by_handshakes {service : RuntimeService} (hs : Decodable service)
    {socketPath : String} {timeoutMs : Int} (hn : socketPath ≠ "")
    (hd : (Deadline.text? timeoutMs).isSome = true) (ns : String) (s : Clientele)
    {later : List Deed} (hno : Deed.closeAll ∉ later) :
    let begun := step service s (.connect socketPath ns timeoutMs)
    ∃ made client, (Client.connect service s.network socketPath ns timeoutMs).client = .ok made ∧
      Stands service (run service begun later) s.clients.length client
        (made.replyTo service s.network {} ::
          handshakeReplies service begun s.clients.length later) := by
  intro begun
  obtain ⟨made, hm, hmade, hl⟩ := connect_step hs hn hd ns s
  obtain ⟨hclient, hlive⟩ := state_run hs hmade hl hno
  refine ⟨made, _, hm, stands_of_state hs hclient hlive ?_⟩
  dsimp only
  rw [Client.state_connect hs hm]
  rfl

namespace Faltering

/-- A runtime that fails the second request and answers all others. -/
def runtime : RuntimeService := fun _ earlier _ =>
  if earlier = 1 then .error (.plain "busy") else .ok []

theorem runtime_decodable : Decodable runtime := by
  intro target earlier request bytes h
  unfold runtime at h
  split at h
  next => cases h
  next =>
    obtain rfl := Except.ok.inj h
    exact ⟨{}, Wire.ListResponse.decode_nil⟩

def later : List Deed := [.handshake 0, .list 0 "a3f5c1d2e4b6", .handshake 0]

/-- The client that fails a handshake, though the next one is answered. -/
theorem stands_behind_failure :
    let begun := step runtime {} (.connect "/run/x.sock" "default" 1000)
    Decodable runtime ∧ "/run/x.sock" ≠ "" ∧ (Deadline.text? 1000).isSome = true ∧
      Deed.closeAll ∉ later ∧ ∃ made client,
        (Client.connect runtime {} "/run/x.sock" "default" 1000).client = .ok made ∧
          Stands runtime (run runtime begun later) 0 client
            (made.replyTo runtime {} {} :: handshakeReplies runtime begun 0 later) := by
  have hd : (Deadline.text? 1000).isSome = true := by decide +kernel
  exact ⟨runtime_decodable, by decide, hd, by decide,
    stands_by_handshakes runtime_decodable (by decide) hd "default" {} (by decide)⟩

example : (run runtime {} (.connect "/run/x.sock" "default" 1000 :: later)).clients.map
    (·.state) = [.broken] := by decide +kernel

end Faltering

end Clientele
end Attribution
