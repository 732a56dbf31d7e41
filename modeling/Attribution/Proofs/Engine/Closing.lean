import Attribution.Engine.Basic
import Attribution.Proofs.Containerd.Clientele

namespace Attribution

section

variable {service : RuntimeService} {network : Network} {client : Client}

/-- Whatever the runtime answers, each call ends with a value, and a failure of the runtime shows in
it. -/
structure FailsByValue (service : RuntimeService) (network : Network) (client : Client) : Prop where
  handshake : ∃ answered, (Client.handshake service network client).answer = .ok answered ∧
    ∀ e, client.replyTo service network {} = .error e → answered = false
  list : ∀ fragment, ∃ reply, (client.listByFragment service network fragment).1 = .ok reply ∧
    ∀ e, client.replyTo service network (Client.fragmentRequest fragment) = .error e →
      reply = .error e
  resolve : ∀ (engine : Engine) limits cache (thread : Thread) found e, engine.client = some client →
    CgroupLayout.match? containerdLayout thread.cgroups = some found →
    client.replyTo service network (Client.fragmentRequest found.containerId) = .error e →
      (engine.resolve service limits network cache thread).answer = .ok false

/-- Each call is a fault and leaves everything as it was, the client's state too. -/
structure FailsByFault (service : RuntimeService) (network : Network) (client : Client) : Prop where
  handshake : Client.handshake service network client = ⟨.error .closedChannel, client, network, []⟩
  list : ∀ fragment,
    client.listByFragment service network fragment = (.error .closedChannel, network)
  resolve : ∀ (engine : Engine) limits cache (thread : Thread) found, engine.client = some client →
    CgroupLayout.match? containerdLayout thread.cgroups = some found →
      engine.resolve service limits network cache thread =
        { answer := .error .closedChannel, thread, network, cache }

theorem failsByValue_of_live (hs : Decodable service) (hl : Client.Live network client) :
    FailsByValue service network client := by
  have hlist : ∀ {fragment : String} {e : RpcError},
      client.replyTo service network (Client.fragmentRequest fragment) = .error e →
        (client.listByFragment service network fragment).1 = .ok (.error e) := by
    intro fragment e hr
    obtain ⟨timeout, _, hc⟩ := Client.call_of_live hl service (Client.fragmentRequest fragment)
    rw [Client.listByFragment, hc, hr]
    rfl
  refine ⟨?_, ?_, ?_⟩
  · obtain ⟨timeout, answered, _, ha, log, he⟩ := Client.handshake_of_live hs hl
    rw [he]
    refine ⟨_, rfl, fun e hr => ?_⟩
    have hno : answered = false := by
      rw [Bool.eq_false_iff]
      intro hy
      obtain ⟨bytes, hb⟩ := ha.mp hy
      cases hr.symm.trans hb
    rw [hno]
    rfl
  · intro fragment
    obtain ⟨reply, hr⟩ := Client.call_succeeds hs hl (Client.fragmentRequest fragment)
    refine ⟨reply, hr, fun e he => ?_⟩
    exact Except.ok.inj (hr.symm.trans (hlist he))
  · intro engine limits cache thread found e hc hm he
    have hreply := hlist he
    unfold Engine.resolve
    simp only [hm, hc]
    generalize client.listByFragment service network found.containerId = listed at hreply ⊢
    obtain ⟨answer, behind⟩ := listed
    obtain rfl : answer = .ok (.error e) := hreply
    rfl

theorem failsByFault_of_shut (h : network.channels.Shut client.channel)
    (hd : (Deadline.text? client.timeoutMs).isSome = true) : FailsByFault service network client := by
  have hcall : ∀ request, client.call service network request = (.error .closedChannel, network) := by
    intro request
    obtain ⟨timeout, ht⟩ := Option.isSome_iff_exists.mp hd
    unfold Client.call
    simp [ht, h.closed]
  refine ⟨?_, fun fragment => hcall _, ?_⟩
  · unfold Client.handshake
    rw [hcall]
  · intro engine limits cache thread found hc hm
    unfold Engine.resolve Client.listByFragment
    simp only [hm, hc, hcall]

end

open Clientele (run)

/-- Clients can be made at any time. From then on failures are values for as long as the channels are
not closed, and never again after that. -/
theorem fails_by_value_until_closed {service : RuntimeService} (hs : Decodable service)
    {socketPath : String} {timeoutMs : Int} (hn : socketPath ≠ "")
    (hd : (Deadline.text? timeoutMs).isSome = true) (ns : String) (before later : List Deed) :
    let s := run service {} before
    let t := run service s (.connect socketPath ns timeoutMs :: later)
    ∃ made state, (Client.connect service s.network socketPath ns timeoutMs).client = .ok made ∧
      t.clients[s.clients.length]? = some { made with state } ∧
      (Deed.closeAll ∉ later → FailsByValue service t.network { made with state }) ∧
      (Deed.closeAll ∈ later → FailsByFault service t.network { made with state }) := by
  intro s t
  have hnumbered : s.network.channels.Numbered :=
    Clientele.numbered_run service (by intro c hc; cases hc) before
  have hnext := Clientele.numbered_step service hnumbered (.connect socketPath ns timeoutMs)
  obtain ⟨made, hm, hmade, hl⟩ := Clientele.connect_step hs hn hd ns s
  obtain ⟨state, hclient⟩ := Clientele.client_run service later hmade
  refine ⟨made, state, hm, hclient, fun hno => ?_, fun hclosed => ?_⟩
  · have hopen : t.network.channels.Open made.channel := Clientele.open_run service hl.opened hno
    exact failsByValue_of_live hs ⟨hopen, hl.deadline⟩
  · have hshut : t.network.channels.Shut made.channel :=
      Clientele.shut_of_closeAll service hl.opened hnext hclosed
    exact failsByFault_of_shut hshut hl.deadline

namespace ClosedRegistry

/-- A runtime that lists nothing and never fails. -/
def runtime : RuntimeService := fun _ _ _ => .ok []

theorem runtime_decodable : Decodable runtime := by
  intro target earlier request bytes h
  obtain rfl := Except.ok.inj h
  exact ⟨{}, Wire.ListResponse.decode_nil⟩

theorem values_until_closed :
    Decodable runtime ∧ "/run/x.sock" ≠ "" ∧ (Deadline.text? 1000).isSome = true ∧
      let s := run runtime {} [.closeAll]
      let t := run runtime s [.connect "/run/x.sock" "default" 1000, .list 0 "a3f5c1d2e4b6"]
      ∃ made state,
        (Client.connect runtime s.network "/run/x.sock" "default" 1000).client = .ok made ∧
        t.clients[s.clients.length]? = some { made with state } ∧
        (Deed.closeAll ∉ [Deed.list 0 "a3f5c1d2e4b6"] →
          FailsByValue runtime t.network { made with state }) ∧
        (Deed.closeAll ∈ [Deed.list 0 "a3f5c1d2e4b6"] →
          FailsByFault runtime t.network { made with state }) := by
  have hd : (Deadline.text? 1000).isSome = true := by decide +kernel
  exact ⟨runtime_decodable, by decide, hd,
    fails_by_value_until_closed runtime_decodable (by decide) hd "default" [.closeAll]
      [.list 0 "a3f5c1d2e4b6"]⟩

/-- A client is made and answered, and then all channels are closed. -/
def network : Network :=
  (run runtime {} [.connect "/run/x.sock" "default" 1000, .closeAll]).network

def client : Client :=
  ⟨"/run/x.sock", ⟨0, "unix:///run/x.sock", Client.channelOptions⟩, "default", 1000, .bound⟩

def digits : String := "a3f5c1d2e4b6a3f5c1d2e4b6a3f5c1d2e4b6a3f5c1d2e4b6a3f5c1d2e4b60123"

def thread : Thread := { tid := 2, cgroups := [⟨"cpu", "/default/" ++ digits⟩] }

theorem closed_client_fails_by_fault :
    (run runtime {} [.connect "/run/x.sock" "default" 1000, .closeAll]).clients = [client] ∧
      (Client.handshake runtime network client).answer = .error .closedChannel ∧
      (client.listByFragment runtime network "a3f5c1d2e4b6").1 = .error .closedChannel ∧
      (Engine.resolve ⟨{}, some client⟩ runtime (fun _ => .ok {}) network {} thread).answer =
        .error .closedChannel ∧
      ¬FailsByValue runtime network client := by
  have hclients : (run runtime {} [.connect "/run/x.sock" "default" 1000, .closeAll]).clients =
      [client] := by decide +kernel
  have hshake : (Client.handshake runtime network client).answer = .error .closedChannel := by
    decide +kernel
  refine ⟨hclients, hshake, by decide +kernel, by decide +kernel, fun h => ?_⟩
  obtain ⟨answered, ha, _⟩ := h.handshake
  cases hshake.symm.trans ha

end ClosedRegistry
end Attribution
