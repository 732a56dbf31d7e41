import Attribution.Proofs.Engine.Calls
import Attribution.Proofs.Engine.Readiness

namespace Attribution

/-- A call that shakes hands with a socket. -/
structure IsHandshake (settings : Settings) (path : String) (call : Call) : Prop where
  listing : IsListing settings call
  target : socketTarget path = .ok call.target
  request : call.request = []

/-- The targets of sockets that have a name. -/
def socketTargets (paths : List String) : List String :=
  paths.filterMap fun path => (socketTarget path).toOption

/-- Whether a socket answers a handshake after one with each of those that were tried. -/
def Answers (service : RuntimeService) (network : Network) (tried : List String) (path : String) :
    Prop :=
  ∃ target bytes, socketTarget path = .ok target ∧
    service target (network.asked target + (socketTargets tried).count target) [] = .ok bytes

def NoneAnswers (service : RuntimeService) (network : Network) (paths : List String) : Prop :=
  ∀ tried path later, paths = tried ++ path :: later → ¬Answers service network tried path

/-- What trying sockets comes to: the client of the first that answers, if one does, and the calls,
one for each socket as far as they were tried. -/
inductive Selection (settings : Settings) (service : RuntimeService) (network : Network)
    (sockets : List String) : Option Client → List Call → Prop where
  | found {before after : List String} {client : Client} {calls : List Call} {timeout : String}
      (split : sockets = before ++ client.socketPath :: after)
      (silent : NoneAnswers service network before)
      (answers : Answers service network before client.socketPath)
      (tried : List.Forall₂ (IsHandshake settings) (before ++ [client.socketPath]) calls)
      (last : calls.getLast? = some (client.callOf [] timeout)) (ok : client.isOk = true) :
      Selection settings service network sockets (some client) calls
  | none {calls : List Call} (silent : NoneAnswers service network sockets)
      (tried : List.Forall₂ (IsHandshake settings) sockets calls) :
      Selection settings service network sockets none calls

section

variable {service : RuntimeService} {settings : Settings} {network : Network} {path : String}

theorem Settings.reach_shakes (hs : Decodable service)
    (hd : ¬settings.Endless) (hn : path ≠ "") (network : Network) :
    let connection := settings.reach service network path
    ∃ client timeout, connection.client = .ok client ∧ client.socketPath = path ∧
      connection.network.calls = network.calls ++ [client.callOf [] timeout] ∧
      IsHandshake settings path (client.callOf [] timeout) ∧
      (client.isOk = true ↔ Answers service network [] path) := by
  obtain ⟨target, ht⟩ := Client.socketTarget_succeeds hn
  have hopened := Channels.isOpen_get network.channels target Client.channelOptions
  have htarget := Channels.target_get network.channels target Client.channelOptions
  unfold reach Client.connect
  simp only [ht]
  generalize network.channels.get target Client.channelOptions = got at hopened htarget ⊢
  obtain ⟨channel, channels, opened⟩ := got
  obtain rfl : channel.target = target := htarget
  have hlive : Client.Live { network with channels }
      { socketPath := path, channel, ns := settings.containerdNamespace
        timeoutMs := settings.runtimeTimeoutMs } := ⟨hopened, Settings.isSome_deadline hd⟩
  obtain ⟨timeout, answered, htext, ha, log, hshaken⟩ := Client.handshake_of_live hs hlive
  simp only [hshaken]
  refine ⟨_, timeout, rfl, rfl, rfl, ⟨Client.isListing_callOf ⟨rfl, rfl⟩ htext [], ht, rfl⟩, ?_⟩
  have hcount : Answers service network [] path ↔ answered = true := by
    rw [ha]
    constructor
    · rintro ⟨target, bytes, he, hb⟩
      obtain rfl := Except.ok.inj (ht.symm.trans he)
      exact ⟨bytes, hb⟩
    · rintro ⟨bytes, hb⟩
      exact ⟨channel.target, bytes, ht, hb⟩
  rw [hcount]
  cases answered <;> simp [Client.isOk, ClientState.next]

theorem Settings.reach_of_endless (hd : settings.Endless) (hn : path ≠ "")
    (service : RuntimeService) (network : Network) :
    (settings.reach service network path).client = .error .endlessTimeout := by
  obtain ⟨target, ht⟩ := Client.socketTarget_succeeds hn
  unfold reach Client.connect Client.handshake Client.call
  simp only [ht, Settings.endless_iff.mp hd]
  rfl

theorem Settings.shakes_of_reach {client : Client} (hs : Decodable service) (hn : path ≠ "")
    (hm : (settings.reach service network path).client = .ok client) :
    ∃ timeout, client.socketPath = path ∧
      (settings.reach service network path).network.calls =
        network.calls ++ [client.callOf [] timeout] ∧
      IsHandshake settings path (client.callOf [] timeout) ∧
      (client.isOk = true ↔ Answers service network [] path) := by
  by_cases hd : settings.Endless
  · rw [reach_of_endless hd hn] at hm
    cases hm
  · obtain ⟨made, timeout, hclient, hshaken⟩ := reach_shakes hs hd hn network
    obtain rfl := Except.ok.inj (hclient.symm.trans hm)
    exact ⟨timeout, hshaken⟩

/-- What a socket does after others were tried it does after the network has seen those tries. -/
theorem answers_cons {behind : Network} {call : Call} {first : String}
    (hb : behind.calls = network.calls ++ [call]) (hc : socketTarget first = .ok call.target)
    (tried : List String) :
    Answers service network (first :: tried) path ↔ Answers service behind tried path := by
  have htargets : socketTargets (first :: tried) = call.target :: socketTargets tried :=
    List.filterMap_cons_some (by rw [hc]; rfl)
  have hcount : ∀ target, network.asked target + (socketTargets (first :: tried)).count target =
      behind.asked target + (socketTargets tried).count target := by
    intro target
    rw [Network.asked, Network.asked, hb, htargets, List.filter_append, List.length_append,
      List.count_cons]
    by_cases he : call.target = target
    · simp only [he, beq_self_eq_true, List.filter_cons_of_pos, List.filter_nil, List.length_singleton,
        if_true]
      omega
    · simp [he]
  simp only [Answers, hcount]

theorem noneAnswers_nil (service : RuntimeService) (network : Network) :
    NoneAnswers service network [] := by
  intro tried path later he
  simp at he

theorem noneAnswers_cons {behind : Network} {call : Call} {first : String} {paths : List String}
    (hb : behind.calls = network.calls ++ [call]) (hc : socketTarget first = .ok call.target)
    (hf : ¬Answers service network [] first) (h : NoneAnswers service behind paths) :
    NoneAnswers service network (first :: paths) := by
  intro tried path later he
  cases tried with
  | nil =>
    obtain ⟨rfl, _⟩ := List.cons.inj he
    exact hf
  | cons first' tried =>
    obtain ⟨rfl, hrest⟩ := List.cons.inj he
    rw [answers_cons hb hc]
    exact h tried path later hrest

theorem Selection.first {client : Client} {timeout : String}
    (hc : IsHandshake settings client.socketPath (client.callOf [] timeout))
    (hf : Answers service network [] client.socketPath) (ok : client.isOk = true)
    (sockets : List String) :
    Selection settings service network (client.socketPath :: sockets) (some client)
      [client.callOf [] timeout] := by
  have hsplit : client.socketPath :: sockets = [] ++ client.socketPath :: sockets := rfl
  exact .found hsplit (noneAnswers_nil service network) hf (.cons hc .nil) rfl ok

theorem Selection.cons {behind : Network} {call : Call} {sockets : List String}
    {found : Option Client} {calls : List Call} (hb : behind.calls = network.calls ++ [call])
    (hc : IsHandshake settings path call) (hf : ¬Answers service network [] path)
    (h : Selection settings service behind sockets found calls) :
    Selection settings service network (path :: sockets) found (call :: calls) := by
  cases h with
  | @found before after client _ timeout split silent answers tried last ok =>
    have hanswers : Answers service network (path :: before) client.socketPath :=
      (answers_cons hb hc.target before).mpr answers
    have hlast : (call :: calls).getLast? = some (client.callOf [] timeout) := by
      rw [List.getLast?_cons, last]
      rfl
    exact .found (by rw [split]; rfl) (noneAnswers_cons hb hc.target hf silent) hanswers
      (.cons hc tried) hlast ok
  | none silent tried => exact .none (noneAnswers_cons hb hc.target hf silent) (.cons hc tried)

/-- A search that ends without a fault has tried the sockets in order, up to the first that answers. -/
theorem discover_selects {fs : FileSystem} (hs : Decodable service) {names : List SocketName}
    {found : Option Client}
    (h : (discover fs service settings network names).client = .ok found) :
    ∃ calls,
      (discover fs service settings network names).network.calls = network.calls ++ calls ∧
      Selection settings service network (socketsAmong fs settings.hostRoot names) found calls := by
  induction names generalizing network with
  | nil =>
    obtain rfl : none = found := Except.ok.inj h
    exact ⟨[], (List.append_nil _).symm, .none (noneAnswers_nil _ _) .nil⟩
  | cons name names ih =>
    cases trial fs service settings network name with
    | passed _ absent goes =>
      rw [goes] at h ⊢
      rw [socketsAmong, List.filterMap_cons_none absent]
      exact ih h
    | barred _ stops =>
      rw [stops] at h
      cases h
    | @silent path _ _ there made broken goes =>
      obtain ⟨timeout, rfl, hcalls, hshake, hok⟩ :=
        Settings.shakes_of_reach hs (ne_empty_of_socket? there) made
      rw [goes] at h ⊢
      rw [socketsAmong, List.filterMap_cons_some there]
      -- The later sockets are tried on a network that has seen one more call.
      obtain ⟨calls, hc, hsel⟩ := ih h
      refine ⟨_ :: calls, ?_, .cons hcalls hshake (fun ha => ?_) hsel⟩
      · rw [Discovery.after, hc, hcalls, List.append_assoc]
        rfl
      · rw [hok.mpr ha] at broken
        cases broken
    | @settled path _ _ there bound stops =>
      rw [stops] at h ⊢
      rw [socketsAmong, List.filterMap_cons_some there]
      cases hm : (settings.reach service network path).client with
      | error fault =>
        rw [hm] at h
        cases h
      | ok client =>
        rw [hm] at h
        obtain rfl : some client = found := Except.ok.inj h
        obtain ⟨timeout, rfl, hcalls, hshake, hok⟩ :=
          Settings.shakes_of_reach hs (ne_empty_of_socket? there) hm
        have ho := bound client hm
        exact ⟨[client.callOf [] timeout], hcalls, .first hshake (hok.mp ho) ho _⟩

theorem noneAnswers_iff_of_selection {sockets : List String} {found : Option Client}
    {calls : List Call} (h : Selection settings service network sockets found calls) :
    NoneAnswers service network sockets ↔ found = none := by
  cases h with
  | found split silent answers => exact iff_of_false (fun hn => hn _ _ _ split answers) (by simp)
  | none silent => exact iff_of_true silent rfl

end
end Attribution
