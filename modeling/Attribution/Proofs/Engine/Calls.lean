import Attribution.Engine.Basic
import Attribution.Proofs.Cgroup.Layout
import Attribution.Proofs.Containerd.Calls
import Attribution.Proofs.Containerd.Fragment
import Attribution.Proofs.Engine.Search

namespace Attribution

section

variable {service : RuntimeService} {settings : Settings} {client : Client}

theorem lists_discover (fs : FileSystem) (service : RuntimeService) (settings : Settings)
    (network : Network) (names : List SocketName) :
    network.Lists settings (discover fs service settings network names).network := by
  induction names generalizing network with
  | nil => exact .of_calls_eq rfl
  | cons name names ih =>
    cases trial fs service settings network name with
    | passed _ _ goes =>
      rw [goes]
      exact ih network
    | barred _ stops =>
      rw [stops]
      exact .of_calls_eq rfl
    | @silent path _ _ _ _ _ goes =>
      rw [goes]
      exact (Client.lists_connect settings service network path).trans (ih _)
    | @settled path _ _ _ _ stops =>
      rw [stops]
      exact Client.lists_connect settings service network path

/-- The client that the search ends with keeps to the settings and can call. -/
theorem discover_client {fs : FileSystem} {network : Network} {names : List SocketName}
    (h : (discover fs service settings network names).client = .ok (some client)) :
    client.Follows settings ∧
      Client.Live (discover fs service settings network names).network client := by
  induction names generalizing network with
  | nil => cases h
  | cons name names ih =>
    cases trial fs service settings network name with
    | passed _ _ goes =>
      rw [goes] at h ⊢
      exact ih h
    | barred _ stops =>
      rw [stops] at h
      cases h
    | silent _ _ _ _ goes =>
      rw [goes] at h ⊢
      exact ih h
    | @settled path _ _ _ _ stops =>
      rw [stops] at h ⊢
      cases hm : (settings.reach service network path).client with
      | error fault =>
        rw [hm] at h
        cases h
      | ok made =>
        rw [hm] at h
        obtain rfl : made = client := Option.some.inj (Except.ok.inj h)
        exact Client.connect_client hm

end

namespace Engine

variable {engine : Engine} {service : RuntimeService} {settings : Settings} {limits : LimitsSource}
  {network : Network} {cache : Cache} {thread : Thread} {client : Client}

/-- The engine's client, if it has one, keeps to the settings and can call. -/
def Backed (engine : Engine) (settings : Settings) (network : Network) : Prop :=
  ∀ client, engine.client = some client → client.Follows settings ∧ Client.Live network client

theorem lists_start (fs : FileSystem) (service : RuntimeService) (network : Network)
    (settings : Settings) :
    network.Lists settings (start fs service network settings).network := by
  have hd := lists_discover fs service settings network settings.containerdSockets
  unfold start
  dsimp only
  split
  next => exact hd
  next => exact hd
  next => exact hd

theorem backed_start {fs : FileSystem}
    (h : (start fs service network settings).engine = .ok engine) :
    engine.Backed settings (start fs service network settings).network := by
  intro client hc
  unfold start at h ⊢
  dsimp only at h ⊢
  split at h
  next => simp at h
  next =>
    obtain rfl := Except.ok.inj h
    simp at hc
  next found hf =>
    obtain rfl := Except.ok.inj h
    obtain rfl := Option.some.inj hc
    exact discover_client hf

theorem network_of_silent
    (h : engine.client = none ∨ CgroupLayout.match? containerdLayout thread.cgroups = none) :
    (engine.resolve service limits network cache thread).network = network := by
  unfold resolve
  split
  next found client hm hc =>
    rcases h with hn | hn
    · simp [hc] at hn
    · simp [hm] at hn
  next => rfl

theorem network_of_match {found : CgroupMatch}
    (hm : CgroupLayout.match? containerdLayout thread.cgroups = some found)
    (hc : engine.client = some client) :
    (engine.resolve service limits network cache thread).network =
      (client.listByFragment service network found.containerId).2 := by
  unfold resolve
  simp only [hm, hc]
  generalize client.listByFragment service network found.containerId = listed
  obtain ⟨answer, behind⟩ := listed
  cases answer with
  | error fault => rfl
  | ok reply =>
    dsimp only
    cases single found.containerId reply with
    | error line => rfl
    | ok container =>
      dsimp only [complete]
      split
      next => rfl
      next => rfl

theorem channels_resolve (engine : Engine) (service : RuntimeService) (limits : LimitsSource)
    (network : Network) (cache : Cache) (thread : Thread) :
    (engine.resolve service limits network cache thread).network.channels = network.channels := by
  cases hm : CgroupLayout.match? containerdLayout thread.cgroups with
  | none => rw [network_of_silent (.inr hm)]
  | some found =>
    cases hc : engine.client with
    | none => rw [network_of_silent (.inl hc)]
    | some client =>
      rw [network_of_match hm hc, Client.listByFragment]
      exact Client.call_channels service network client (Client.fragmentRequest found.containerId)

theorem Backed.resolve (h : engine.Backed settings network) (service : RuntimeService)
    (limits : LimitsSource) (cache : Cache) (thread : Thread) :
    engine.Backed settings (engine.resolve service limits network cache thread).network := by
  intro client hc
  obtain ⟨hf, hl⟩ := h client hc
  exact ⟨hf, by rw [channels_resolve]; exact hl.opened, hl.deadline⟩

theorem lists_resolve (h : engine.Backed settings network) (service : RuntimeService)
    (limits : LimitsSource) (cache : Cache) (thread : Thread) :
    network.Lists settings (engine.resolve service limits network cache thread).network := by
  cases hm : CgroupLayout.match? containerdLayout thread.cgroups with
  | none => exact .of_calls_eq (by rw [network_of_silent (.inr hm)])
  | some found =>
    cases hc : engine.client with
    | none => exact .of_calls_eq (by rw [network_of_silent (.inl hc)])
    | some client =>
      rw [network_of_match hm hc, Client.listByFragment]
      exact Client.lists_call (h client hc).1 service network
        (Client.fragmentRequest found.containerId)

/-- An attempt at a thread, with the limits and the cache that it finds when its turn comes. -/
structure Inquiry where
  limits : LimitsSource
  cache : Cache
  thread : Thread

/-- The network behind inquiries, one after the other. -/
def networkAfter (engine : Engine) (service : RuntimeService) (network : Network) :
    List Inquiry → Network
  | [] => network
  | q :: qs =>
    networkAfter engine service (engine.resolve service q.limits network q.cache q.thread).network qs

theorem networkAfter_append (engine : Engine) (service : RuntimeService) (network : Network)
    (made later : List Inquiry) :
    engine.networkAfter service network (made ++ later) =
      engine.networkAfter service (engine.networkAfter service network made) later := by
  induction made generalizing network with
  | nil => rfl
  | cons q made ih => exact ih _

theorem networkAfter_take_succ {made : List Inquiry} {n : Nat} {q : Inquiry}
    (h : made[n]? = some q) (network : Network) :
    engine.networkAfter service network (made.take (n + 1)) =
      (engine.resolve service q.limits (engine.networkAfter service network (made.take n)) q.cache
        q.thread).network := by
  rw [List.take_add_one, h, networkAfter_append]
  rfl

theorem Backed.after (h : engine.Backed settings network) (service : RuntimeService)
    (made : List Inquiry) :
    engine.Backed settings (engine.networkAfter service network made) ∧
      network.Lists settings (engine.networkAfter service network made) := by
  induction made generalizing network with
  | nil => exact ⟨h, .of_calls_eq rfl⟩
  | cons q made ih =>
    obtain ⟨hb, hl⟩ := ih (h.resolve service q.limits q.cache q.thread)
    exact ⟨hb, (lists_resolve h service q.limits q.cache q.thread).trans hl⟩

/-- The fragment of a call that asks for the containers of an id: its first twelve digits. -/
structure AsksFor (id : List Char) (call : Call) (fragment : String) : Prop where
  request : Wire.ListRequest.decode call.request = some { filters := ["id~=" ++ fragment] }
  first : fragment.toList <+: id
  length : fragment.length = 12
  digits : ∀ c ∈ fragment.toList, isHexDigit c = true

theorem asksFor_callOf {id : List Char} (h : isContainerId id = true) (client : Client)
    (timeout : String) :
    let fragment := String.ofList (id.take shortIdLength)
    AsksFor id (client.callOf (Client.fragmentRequest fragment).encode timeout) fragment := by
  intro fragment
  have hs : IsShortId fragment := ⟨id, h, rfl⟩
  have hl : fragment.length = 12 := hs.length
  refine ⟨Client.decode_fragmentRequest (by omega), ?_, hl, fun c hc => hs.isHexDigit_of_mem hc⟩
  rw [String.toList_ofList]
  exact List.take_prefix shortIdLength id

/-- What is called from the start of an engine on, however many threads it is asked about. -/
structure CallsSparingly (service : RuntimeService) (settings : Settings) (network : Network)
    (started : Startup) : Prop where
  /-- Whether or not the start succeeds, all its calls are listings under the settings. -/
  start : network.Lists settings started.network
  /-- So are all calls after it. -/
  listings : ∀ (engine : Engine) made, started.engine = .ok engine →
    network.Lists settings (engine.networkAfter service started.network made)
  /-- A thread none of whose paths shows an id costs no call, nor does any thread in an engine
  without a client. -/
  silent : ∀ (engine : Engine) (made : List Inquiry) n q, started.engine = .ok engine →
    made[n]? = some q →
    (engine.client = none ∨ ∀ m ∈ q.thread.cgroups, ∀ id, ¬ShowsId m.path id) →
    engine.networkAfter service started.network (made.take (n + 1)) =
      engine.networkAfter service started.network (made.take n)
  /-- Every other thread costs one call, for the id that its first path with an id shows. -/
  asks : ∀ (engine : Engine) client (made : List Inquiry) n q earlier m later id,
    started.engine = .ok engine → engine.client = some client → made[n]? = some q →
    q.thread.cgroups = earlier ++ m :: later → (∀ e ∈ earlier, ∀ id, ¬ShowsId e.path id) →
    ShowsId m.path id →
    ∃ call fragment,
      (engine.networkAfter service started.network (made.take (n + 1))).calls =
        (engine.networkAfter service started.network (made.take n)).calls ++ [call] ∧
      IsListing settings call ∧ AsksFor id call fragment

theorem calls_sparingly (fs : FileSystem) (service : RuntimeService) (network : Network)
    (settings : Settings) :
    CallsSparingly service settings network (start fs service network settings) where
  start := lists_start fs service network settings
  listings engine made hs :=
    (lists_start fs service network settings).trans ((backed_start hs).after service made).2
  silent engine made n q hs hn hq := by
    rw [networkAfter_take_succ hn]
    apply network_of_silent
    rcases hq with hc | hp
    · exact .inl hc
    · exact .inr (CgroupLayout.match?_eq_none_of_not_showsId hp)
  asks engine client made n q earlier m later id hs hc hn hcgroups hearlier hm := by
    have hmatch := CgroupLayout.match?_of_showsId hcgroups hearlier hm
    -- Whatever was asked before, the client can still call when the turn of the thread comes.
    obtain ⟨hf, hl⟩ := ((backed_start hs).after service (made.take n)).1 client hc
    obtain ⟨timeout, ht, hcalls⟩ := Client.calls_call hl service
      (Client.fragmentRequest (String.ofList (id.take shortIdLength)))
    refine ⟨_, String.ofList (id.take shortIdLength), ?_, Client.isListing_callOf hf ht _,
      asksFor_callOf hm.1 client timeout⟩
    rw [networkAfter_take_succ hn, network_of_match hmatch hc, Client.listByFragment, hcalls]

end Engine
end Attribution
