import Attribution.Engine.Basic
import Attribution.Proofs.Containerd.Deadline
import Attribution.Proofs.Engine.Search

namespace Attribution

/-- The engine can ask its runtime if it has one. -/
def Engine.Ready (engine : Engine) (network : Network) : Prop :=
  ∀ client, engine.client = some client → Client.Live network client

/-- The time limit is too large for a number of seconds. -/
def Settings.Endless (settings : Settings) : Prop :=
  2 ^ 1024 - 2 ^ 970 ≤ settings.runtimeTimeoutMs.natAbs

instance (settings : Settings) : Decidable settings.Endless :=
  inferInstanceAs (Decidable (2 ^ 1024 - 2 ^ 970 ≤ settings.runtimeTimeoutMs.natAbs))

theorem Settings.endless_iff {settings : Settings} :
    settings.Endless ↔ Deadline.text? settings.runtimeTimeoutMs = none :=
  Deadline.text?_eq_none_iff.symm

theorem Settings.isSome_deadline {settings : Settings} (h : ¬settings.Endless) :
    (Deadline.text? settings.runtimeTimeoutMs).isSome = true :=
  Option.isSome_iff_ne_none.mpr (mt endless_iff.mpr h)

/-- The name is a text that can be handed to the file system. -/
def SocketName.Plain : SocketName → Prop
  | .text name => IsPath name
  | .unpaired _ _ => False

instance : DecidablePred SocketName.Plain
  | .text name => inferInstanceAs (Decidable (IsPath name))
  | .unpaired _ _ => instDecidableFalse

/-- The sockets of the settings are paths, and the time limit is one that can be waited for. -/
structure Settings.Usable (settings : Settings) : Prop where
  hostRoot : IsPath settings.hostRoot
  sockets : ∀ name ∈ settings.containerdSockets, name.Plain
  deadline : ¬settings.Endless

theorem Settings.Usable.opens {settings : Settings} (h : settings.Usable) (fs : FileSystem) :
    ∀ name ∈ settings.containerdSockets, name.Open fs settings.hostRoot := by
  intro name hm
  have hp := h.sockets name hm
  cases name with
  | text name => exact .inr (isPath_append.mpr ⟨h.hostRoot, hp⟩)
  | unpaired points stray => exact hp.elim

section

variable {service : RuntimeService} {settings : Settings}

theorem discover_succeeds {fs : FileSystem} (hs : Decodable service)
    (hd : ¬settings.Endless) {names : List SocketName}
    (hopen : ∀ name ∈ names, name.Open fs settings.hostRoot) (network : Network) :
    ∃ found, (discover fs service settings network names).client = .ok found ∧
      ∀ client, found = some client →
        Client.Live (discover fs service settings network names).network client := by
  induction names generalizing network with
  | nil => exact ⟨none, rfl, by simp⟩
  | cons name names ih =>
    obtain ⟨hfirst, hlater⟩ := List.forall_mem_cons.mp hopen
    cases trial fs service settings network name with
    | passed _ _ goes =>
      rw [goes]
      exact ih hlater network
    | barred closed => exact (closed hfirst).elim
    | silent _ _ _ _ goes =>
      rw [goes]
      exact ih hlater _
    | settled _ _ there _ stops =>
      obtain ⟨client, hc, hl⟩ := Client.connect_succeeds hs (ne_empty_of_socket? there)
        (Settings.isSome_deadline hd) network settings.containerdNamespace
      rw [stops, Settings.reach, hc]
      exact ⟨some client, rfl, fun c he => Option.some.inj he ▸ hl⟩

theorem Engine.start_succeeds (fs : FileSystem) (hs : Decodable service) (hu : settings.Usable)
    (network : Network) :
    ∃ engine, (Engine.start fs service network settings).engine = .ok engine ∧
      engine.Ready (Engine.start fs service network settings).network := by
  obtain ⟨found, hf, hl⟩ := discover_succeeds hs hu.deadline (hu.opens fs) network
  unfold Engine.start
  simp only [hf]
  cases found with
  | none => exact ⟨_, rfl, fun client hc => by cases hc⟩
  | some client =>
    refine ⟨_, rfl, fun c hc => hl c hc⟩

end

namespace Engine

variable {engine : Engine} {service : RuntimeService} {limits : LimitsSource} {network : Network}
  {cache : Cache} {thread : Thread}

theorem resolve_succeeds (hs : Decodable service) (hr : engine.Ready network)
    (hl : ∀ id, ∃ l, limits (limitsKey id { thread with containerId := id }) = .ok l) :
    (∃ found, (engine.resolve service limits network cache thread).answer = .ok found) ∧
      engine.Ready (engine.resolve service limits network cache thread).network := by
  unfold resolve
  split
  next found client hm hc =>
    obtain ⟨reply, hreply⟩ := Client.call_succeeds hs (hr client hc)
      (Client.fragmentRequest found.containerId)
    have hchannels := Client.call_channels service network client
      (Client.fragmentRequest found.containerId)
    unfold Client.listByFragment
    dsimp only
    generalize client.call service network (Client.fragmentRequest found.containerId) = result
      at hreply hchannels ⊢
    obtain ⟨answer, after⟩ := result
    obtain rfl : answer = .ok reply := hreply
    have hready : engine.Ready after := fun c he =>
      ⟨hchannels ▸ (hr c he).opened, (hr c he).deadline⟩
    cases hsingle : single found.containerId reply with
    | error line =>
      simp only [hsingle]
      exact ⟨⟨false, rfl⟩, hready⟩
    | ok container =>
      obtain ⟨l, hlimits⟩ := hl found.containerId
      have hkey : (ContainerRecord.ofContainer container found.containerId
        engine.settings.labelMaxLength).id = found.containerId := rfl
      simp only [hsingle, complete, hkey, hlimits]
      exact ⟨⟨true, rfl⟩, hready⟩
  next => exact ⟨⟨false, rfl⟩, hr⟩

end Engine
end Attribution
