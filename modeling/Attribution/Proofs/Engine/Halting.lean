import Attribution.Engine.Basic
import Attribution.Proofs.Engine.Readiness
import Attribution.Proofs.Engine.Selection

namespace Attribution

/-- The search for a runtime ends in a fault, behind the sockets that it tried. -/
inductive Halts (fs : FileSystem) (service : RuntimeService) (network : Network)
    (settings : Settings) : List String → Prop where
  /-- There is a socket, and the time limit is not one that can be waited for. -/
  | endless {before after : List SocketName} (split : settings.containerdSockets = before ++ after)
      (opens : ∀ name ∈ before, name.Open fs settings.hostRoot)
      (tried : socketsAmong fs settings.hostRoot before ≠ [])
      (endless : settings.Endless) :
      Halts fs service network settings (socketsAmong fs settings.hostRoot before)
  /-- A name that cannot be looked at, or whose path is no text, comes behind sockets of which none
  answers. -/
  | barred {before after : List SocketName} {name : SocketName}
      (split : settings.containerdSockets = before ++ name :: after)
      (opens : ∀ name ∈ before, name.Open fs settings.hostRoot)
      (silent : NoneAnswers service network (socketsAmong fs settings.hostRoot before))
      (closed : ¬name.Open fs settings.hostRoot) :
      Halts fs service network settings (socketsAmong fs settings.hostRoot before)

section

variable {fs : FileSystem} {service : RuntimeService} {settings : Settings} {network : Network}
  {path : String} {names : List SocketName}

/-- Making a client opens a channel, whatever comes of it. -/
theorem Settings.opened_reach (hn : path ≠ "") (settings : Settings) (service : RuntimeService)
    (network : Network) : (settings.reach service network path).network.channels.opened ≠ [] := by
  obtain ⟨target, ht⟩ := Client.socketTarget_succeeds hn
  have hopen := Channels.isOpen_get network.channels target Client.channelOptions
  obtain ⟨channel, hm, _⟩ := List.any_eq_true.mp hopen
  unfold reach Client.connect
  simp only [ht, Client.handshake_network, Client.call_channels]
  exact List.ne_nil_of_mem hm

/-- A channel is open behind the search if one was before it or there was a socket to try. -/
theorem opened_discover (hopen : ∀ name ∈ names, name.Open fs settings.hostRoot)
    (service : RuntimeService) (network : Network) :
    (discover fs service settings network names).network.channels.opened = [] ↔
      network.channels.opened = [] ∧ socketsAmong fs settings.hostRoot names = [] := by
  induction names generalizing network with
  | nil => exact (and_iff_left rfl).symm
  | cons name names ih =>
    obtain ⟨hfirst, hlater⟩ := List.forall_mem_cons.mp hopen
    cases trial fs service settings network name with
    | passed _ absent goes =>
      rw [goes, socketsAmong, List.filterMap_cons_none absent]
      exact ih hlater network
    | barred closed => exact (closed hfirst).elim
    | silent _ there _ _ goes =>
      have hreached := Settings.opened_reach (ne_empty_of_socket? there) settings service network
      rw [goes, socketsAmong, List.filterMap_cons_some there]
      exact iff_of_false (fun hn => hreached ((ih hlater _).mp hn).1) (by simp)
    | settled _ _ there _ stops =>
      have hreached := Settings.opened_reach (ne_empty_of_socket? there) settings service network
      rw [stops, socketsAmong, List.filterMap_cons_some there]
      exact iff_of_false hreached (by simp)

theorem discover_of_endless (hopen : ∀ name ∈ names, name.Open fs settings.hostRoot)
    (hn : socketsAmong fs settings.hostRoot names ≠ []) (hd : settings.Endless)
    (service : RuntimeService) (network : Network) :
    (discover fs service settings network names).client = .error .endlessTimeout := by
  induction names with
  | nil => exact (hn rfl).elim
  | cons name names ih =>
    obtain ⟨hfirst, hlater⟩ := List.forall_mem_cons.mp hopen
    cases trial fs service settings network name with
    | passed _ absent goes =>
      rw [socketsAmong, List.filterMap_cons_none absent] at hn
      rw [goes]
      exact ih hlater hn
    | barred closed => exact (closed hfirst).elim
    | silent _ there made =>
      rw [Settings.reach_of_endless hd (ne_empty_of_socket? there)] at made
      cases made
    | settled _ _ there _ stops =>
      rw [stops, Settings.reach_of_endless hd (ne_empty_of_socket? there)]
      rfl

theorem discover_of_not_open {name : SocketName} (hn : ¬name.Open fs settings.hostRoot)
    (service : RuntimeService) (network : Network) (later : List SocketName) :
    ∃ fault, discover fs service settings network (name :: later) = ⟨.error fault, network, []⟩ := by
  cases trial fs service settings network name with
  | passed opens => exact (hn opens).elim
  | barred _ stops => exact ⟨_, stops later⟩
  | silent opens => exact (hn opens).elim
  | settled _ opens => exact (hn opens).elim

/-- Sockets none of which answers are tried to no end, or no limit can be waited for. -/
theorem discover_of_silent (hs : Decodable service)
    (hopen : ∀ name ∈ names, name.Open fs settings.hostRoot)
    (silent : NoneAnswers service network (socketsAmong fs settings.hostRoot names)) :
    (discover fs service settings network names).client = .ok none ∨
      (discover fs service settings network names).client = .error .endlessTimeout := by
  by_cases hsockets : socketsAmong fs settings.hostRoot names = []
  · exact .inl (by rw [discover_of_no_socket hopen hsockets])
  · by_cases hd : settings.Endless
    · exact .inr (discover_of_endless hopen hsockets hd service network)
    · obtain ⟨found, hclient, _⟩ := discover_succeeds hs hd hopen network
      obtain ⟨calls, _, hsel⟩ := discover_selects hs hclient
      obtain rfl := (noneAnswers_iff_of_selection hsel).mp silent
      exact .inl hclient

/-- Names are open up to the first that is not. -/
theorem exists_open_before (fs : FileSystem) (root : String) (names : List SocketName) :
    ∃ before rest, names = before ++ rest ∧ (∀ name ∈ before, name.Open fs root) ∧
      (rest = [] ∨ ∃ name after, rest = name :: after ∧ ¬name.Open fs root) := by
  induction names with
  | nil => exact ⟨[], [], rfl, nofun, .inl rfl⟩
  | cons name names ih =>
    by_cases hn : name.Open fs root
    · obtain ⟨before, rest, rfl, opens, hrest⟩ := ih
      exact ⟨name :: before, rest, rfl, List.forall_mem_cons.mpr ⟨hn, opens⟩, hrest⟩
    · exact ⟨[], name :: names, rfl, nofun, .inr ⟨name, names, rfl, hn⟩⟩

theorem fault_of_halts {tried : List String} (hs : Decodable service)
    (h : Halts fs service network settings tried) :
    let d := discover fs service settings network settings.containerdSockets
    (∃ fault, d.client = .error fault) ∧
      (d.network.channels.opened = [] ↔ network.channels.opened = [] ∧ tried = []) := by
  cases h with
  | @endless before after split opens tried endless =>
    have hclient := discover_of_endless opens tried endless service network
    rw [split, (discover_append fs service settings network before after).2 (by simp [hclient])]
    exact ⟨⟨_, hclient⟩, opened_discover opens service network⟩
  | @barred before after name split opens silent closed =>
    have hopened := opened_discover opens service network
    rw [split]
    obtain ⟨hgoes, hstops⟩ := discover_append fs service settings network before (name :: after)
    rcases discover_of_silent hs opens silent with hclient | hclient
    · obtain ⟨fault, hfault⟩ := discover_of_not_open closed service
        (discover fs service settings network before).network after
      rw [hgoes hclient, hfault]
      exact ⟨⟨fault, rfl⟩, hopened⟩
    · rw [hstops (by simp [hclient])]
      exact ⟨⟨_, hclient⟩, hopened⟩

theorem halts_of_fault (hs : Decodable service) {fault : Fault}
    (hf : (discover fs service settings network settings.containerdSockets).client = .error fault) :
    ∃ tried, Halts fs service network settings tried := by
  obtain ⟨before, rest, split, opens, hrest⟩ :=
    exists_open_before fs settings.hostRoot settings.containerdSockets
  obtain ⟨hgoes, hstops⟩ := discover_append fs service settings network before rest
  rw [split] at hf
  cases hd : (discover fs service settings network before).client with
  | error fault =>
    -- Names that are open end the search only if the limit is endless.
    by_cases ht : settings.Endless
    · refine ⟨_, .endless split opens (fun hn => ?_) ht⟩
      rw [discover_of_no_socket opens hn] at hd
      cases hd
    · obtain ⟨found, hclient, _⟩ := discover_succeeds hs ht opens network
      rw [hclient] at hd
      cases hd
  | ok found =>
    obtain ⟨calls, _, hsel⟩ := discover_selects hs hd
    cases found with
    | some client =>
      rw [hstops (by simp [hd]), hd] at hf
      cases hf
    | none =>
      rcases hrest with rfl | ⟨name, after, rfl, closed⟩
      · rw [hgoes hd] at hf
        cases hf
      · exact ⟨_, .barred split opens ((noneAnswers_iff_of_selection hsel).mpr rfl) closed⟩

end

namespace Engine

variable {service : RuntimeService} {settings : Settings} {network : Network} {engine : Engine}

theorem start_eq_error {fs : FileSystem} {fault : Fault} :
    (start fs service network settings).engine = .error fault ↔
      (discover fs service settings network settings.containerdSockets).client = .error fault := by
  unfold start
  dsimp only
  split
  next hd => simp [hd]
  next hd => simp [hd]
  next hd => simp [hd]

theorem start_network (fs : FileSystem) (service : RuntimeService) (network : Network)
    (settings : Settings) : (start fs service network settings).network =
      (discover fs service settings network settings.containerdSockets).network := by
  unfold start
  dsimp only
  split <;> rfl

theorem start_eq_ok {fs : FileSystem} (h : (start fs service network settings).engine = .ok engine) :
    (discover fs service settings network settings.containerdSockets).client = .ok engine.client := by
  unfold start at h
  dsimp only at h
  split at h
  next => cases h
  next hd =>
    obtain rfl := Except.ok.inj h
    exact hd
  next hd =>
    obtain rfl := Except.ok.inj h
    exact hd

theorem resolve_of_clientless (h : engine.client = none) (service : RuntimeService)
    (limits : LimitsSource) (network : Network) (cache : Cache) (thread : Thread) :
    engine.resolve service limits network cache thread =
      { answer := .ok false, thread, network, cache } := by
  unfold resolve
  split
  next hc => simp [h] at hc
  next => rfl

/-- An engine starts unless the search for its runtime halts, and then with the client of the first
socket that answers. If none does it attributes nothing, ever, and asks nobody. -/
theorem start_selects (fs : FileSystem) (hs : Decodable service) (settings : Settings)
    (network : Network) :
    ((∃ engine, (start fs service network settings).engine = .ok engine) ↔
      ¬∃ tried, Halts fs service network settings tried) ∧
    ∀ engine, (start fs service network settings).engine = .ok engine →
      (∃ calls, (start fs service network settings).network.calls = network.calls ++ calls ∧
        Selection settings service network
          (socketsAmong fs settings.hostRoot settings.containerdSockets) engine.client calls) ∧
      (engine.client = none → ∀ service limits network cache thread,
        engine.resolve service limits network cache thread =
          { answer := .ok false, thread, network, cache }) := by
  have hfault : (∃ fault, (start fs service network settings).engine = .error fault) ↔
      ∃ tried, Halts fs service network settings tried := by
    simp only [start_eq_error]
    exact ⟨fun ⟨fault, hf⟩ => halts_of_fault hs hf, fun ⟨tried, hh⟩ => (fault_of_halts hs hh).1⟩
  refine ⟨?_, fun engine he => ⟨?_, resolve_of_clientless⟩⟩
  · rw [← hfault]
    cases (start fs service network settings).engine <;> simp
  · rw [start_network]
    exact discover_selects hs (start_eq_ok he)

end Engine

namespace LateAnswer

/-- One of the names has a byte in it that is no text. -/
def settings : Settings where
  hostRoot := "h"
  containerdSockets :=
    [.text "", .text "/a", .unpaired [0x2f, 0xdcff] rfl, .text "/b", .text "/a", .text "/b"]

def fs : FileSystem where
  isSocket _ := .ok true
  read _ := .error .missing
  list _ := .error .missing

/-- A runtime that answers from the second request on, at one target. -/
def runtime : RuntimeService := fun target earlier _ =>
  if target = "unix:///h/a" ∧ 0 < earlier then .ok [] else .error (.plain "not ready")

theorem runtime_decodable : Decodable runtime := by
  intro target earlier request bytes h
  unfold runtime at h
  split at h
  next =>
    obtain rfl := Except.ok.inj h
    exact ⟨{}, Wire.ListResponse.decode_nil⟩
  next => cases h

/-- Three sockets are tried. The last of them is the first again. -/
theorem start_selects_second :
    Decodable runtime ∧
      (Engine.start fs runtime {} settings).network.calls.map Call.target =
        ["unix:///h/a", "unix:///h/b", "unix:///h/a"] ∧
      ∃ engine calls, (Engine.start fs runtime {} settings).engine = .ok engine ∧
        (Engine.start fs runtime {} settings).network.calls = [] ++ calls ∧
        Selection settings runtime {} (socketsAmong fs "h" settings.containerdSockets) engine.client
          calls := by
  have htargets : (Engine.start fs runtime {} settings).network.calls.map Call.target =
      ["unix:///h/a", "unix:///h/b", "unix:///h/a"] := by decide +kernel
  have hstarts : (Engine.start fs runtime {} settings).engine.isOk = true := by decide +kernel
  obtain ⟨engine, he⟩ : ∃ engine, (Engine.start fs runtime {} settings).engine = .ok engine := by
    cases hs : (Engine.start fs runtime {} settings).engine with
    | error fault =>
      rw [hs] at hstarts
      cases hstarts
    | ok engine => exact ⟨engine, rfl⟩
  obtain ⟨⟨calls, hc, hsel⟩, _⟩ :=
    (Engine.start_selects fs runtime_decodable settings {}).2 engine he
  exact ⟨runtime_decodable, htargets, engine, calls, he, hc, hsel⟩

/-- A name that no path can hold, in front of the socket that answers. -/
def stray : Settings :=
  { settings with
    containerdSockets := [.text "/b", .unpaired [0x2f, 0xd800, 0xdcff] rfl, .text "/a", .text "/a"] }

def endless : Settings := { settings with runtimeTimeoutMs := 10 ^ 309 }

/-- Both end the start of the engine, although there is a socket that would answer. -/
theorem start_ends_in_fault :
    Decodable runtime ∧
      (Engine.start fs runtime {} stray).engine = .error (.notEncodable ⟨2, [0xd800, 0xdcff]⟩) ∧
      (Engine.start fs runtime {} endless).engine = .error .endlessTimeout :=
  ⟨runtime_decodable, by decide +kernel, by decide +kernel⟩

end LateAnswer
end Attribution
