import Attribution.Proofs.Containerd.Calls
import Attribution.Proofs.Containerd.Registry

namespace Attribution

/-- What is done with clients: they are made and used, and all channels are closed. -/
inductive Deed where
  | connect (socketPath ns : String) (timeoutMs : Int)
  | handshake (client : Nat)
  | list (client : Nat) (fragment : String)
  | closeAll
  deriving DecidableEq

/-- The network and the clients, in the order in which they were made. -/
structure Clientele where
  network : Network := {}
  clients : List Client := []

namespace Clientele

def step (service : RuntimeService) (s : Clientele) : Deed → Clientele
  | .connect socketPath ns timeoutMs =>
    let c := Client.connect service s.network socketPath ns timeoutMs
    match c.client with
    | .error _ => { s with network := c.network }
    | .ok client => ⟨c.network, s.clients ++ [client]⟩
  | .handshake n =>
    match s.clients[n]? with
    | none => s
    | some client =>
      let shaken := Client.handshake service s.network client
      ⟨shaken.network, s.clients.set n shaken.client⟩
  | .list n fragment =>
    match s.clients[n]? with
    | none => s
    | some client => { s with network := (client.listByFragment service s.network fragment).2 }
  | .closeAll => { s with network := { s.network with channels := s.network.channels.closeAll } }

def run (service : RuntimeService) (s : Clientele) (deeds : List Deed) : Clientele :=
  deeds.foldl (step service) s

variable {service : RuntimeService} {s : Clientele} {deed : Deed} {n : Nat} {client : Client}

theorem grows_step (h : deed ≠ .closeAll) :
    s.network.channels.Grows (step service s deed).network.channels := by
  cases deed with
  | connect socketPath ns timeoutMs =>
    have hc : s.network.channels.Grows
        (Client.connect service s.network socketPath ns timeoutMs).network.channels := by
      unfold Client.connect
      split
      next => exact .same
      next target ht =>
        have hg := Channels.grows_get s.network.channels target Client.channelOptions
        generalize s.network.channels.get target Client.channelOptions = got at hg ⊢
        obtain ⟨channel, channels, opened⟩ := got
        dsimp only
        rw [Client.handshake_network, Client.call_channels]
        exact hg
    unfold step
    dsimp only
    split
    next => exact hc
    next => exact hc
  | handshake n =>
    unfold step
    dsimp only
    split
    next => exact .same
    next client hn =>
      dsimp only
      rw [Client.handshake_network, Client.call_channels]
      exact .same
  | list n fragment =>
    unfold step
    dsimp only
    split
    next => exact .same
    next client hn =>
      dsimp only
      rw [Client.listByFragment, Client.call_channels]
      exact .same
  | closeAll => exact absurd rfl h

/-- A client changes in its own handshakes only. -/
theorem clients_step (service : RuntimeService) (deed : Deed) (h : s.clients[n]? = some client) :
    (step service s deed).clients[n]? = some
      (if deed = .handshake n then (Client.handshake service s.network client).client
        else client) := by
  obtain ⟨hlt, _⟩ := List.getElem?_eq_some_iff.mp h
  cases deed with
  | connect socketPath ns timeoutMs =>
    rw [if_neg (by simp)]
    unfold step
    dsimp only
    split
    next => exact h
    next made hm =>
      dsimp only
      rw [List.getElem?_append_left hlt]
      exact h
  | handshake m =>
    unfold step
    by_cases hmn : m = n
    · subst hmn
      simp only [h, ↓reduceIte]
      exact List.getElem?_set_self hlt
    · rw [if_neg (by simpa using hmn)]
      dsimp only
      split
      next => exact h
      next => rw [List.getElem?_set_ne hmn, h]
  | list m fragment =>
    rw [if_neg (by simp)]
    unfold step
    dsimp only
    split
    next => exact h
    next => exact h
  | closeAll => exact h

theorem client_step (service : RuntimeService) (deed : Deed) (h : s.clients[n]? = some client) :
    ∃ state, (step service s deed).clients[n]? = some { client with state } := by
  rw [clients_step service deed h]
  split
  next =>
    obtain ⟨state, he⟩ := Client.handshake_client service s.network client
    exact ⟨state, congrArg some he⟩
  next => exact ⟨client.state, rfl⟩

theorem client_run (service : RuntimeService) (deeds : List Deed) (h : s.clients[n]? = some client) :
    ∃ state, (run service s deeds).clients[n]? = some { client with state } := by
  induction deeds generalizing s client with
  | nil => exact ⟨client.state, h⟩
  | cons deed deeds ih =>
    obtain ⟨state, hs⟩ := client_step service deed h
    obtain ⟨later, hr⟩ := ih hs
    exact ⟨later, hr⟩

variable {channel : Channel}

/-- The channels of a run come from those before it by getting, and by closing if that is among the
deeds. -/
theorem reaches_run (service : RuntimeService) (s : Clientele) (deeds : List Deed) :
    s.network.channels.Reaches (decide (Deed.closeAll ∈ deeds))
      (run service s deeds).network.channels := by
  induction deeds generalizing s with
  | nil => exact .refl _
  | cons deed deeds ih =>
    by_cases hc : deed = .closeAll
    · subst hc
      rw [decide_eq_true List.mem_cons_self]
      exact .close (ih (step service s .closeAll))
    · have hm : Deed.closeAll ∈ deed :: deeds ↔ Deed.closeAll ∈ deeds := by
        simp [Ne.symm hc]
      rw [decide_eq_decide.mpr hm]
      exact .get (grows_step hc) (ih (step service s deed))

theorem open_run (service : RuntimeService) (h : s.network.channels.Open channel)
    {deeds : List Deed} (hno : Deed.closeAll ∉ deeds) :
    (run service s deeds).network.channels.Open channel :=
  h.reaches (reaches_run service s deeds) (decide_eq_false hno)

theorem numbered_run (service : RuntimeService) (h : s.network.channels.Numbered)
    (deeds : List Deed) : (run service s deeds).network.channels.Numbered :=
  h.reaches (reaches_run service s deeds)

theorem numbered_step (service : RuntimeService) (h : s.network.channels.Numbered) (deed : Deed) :
    (step service s deed).network.channels.Numbered :=
  numbered_run service h [deed]

/-- A channel that was open when all were closed is shut for good. -/
theorem shut_of_closeAll (service : RuntimeService) (h : s.network.channels.Open channel)
    (hs : s.network.channels.Numbered) {deeds : List Deed} (hd : Deed.closeAll ∈ deeds) :
    (run service s deeds).network.channels.Shut channel :=
  h.shut hs (reaches_run service s deeds) (decide_eq_true hd)

theorem connect_step (hs : Decodable service) {socketPath : String} {timeoutMs : Int}
    (hn : socketPath ≠ "") (hd : (Deadline.text? timeoutMs).isSome = true) (ns : String)
    (s : Clientele) :
    ∃ made, (Client.connect service s.network socketPath ns timeoutMs).client = .ok made ∧
      (step service s (.connect socketPath ns timeoutMs)).clients[s.clients.length]? = some made ∧
      Client.Live (step service s (.connect socketPath ns timeoutMs)).network made := by
  obtain ⟨made, hm, hl⟩ := Client.connect_succeeds hs hn hd s.network ns
  unfold step
  simp only [hm]
  exact ⟨made, rfl, List.getElem?_concat_length, hl⟩

end Clientele
end Attribution
