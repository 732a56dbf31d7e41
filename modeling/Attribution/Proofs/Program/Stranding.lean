import Attribution.Proofs.Engine.Halting
import Attribution.Proofs.Program.Visit

namespace Attribution

/-- The search for a runtime ends in a fault behind a socket that it tried. -/
def Strands (fs : FileSystem) (service : RuntimeService) (network : Network) (settings : Settings) :
    Prop :=
  ∃ tried, Halts fs service network settings tried ∧ tried ≠ []

/-- The engine fails to start and leaves channels open exactly if the search for a runtime strands. -/
theorem strands_iff {fs : FileSystem} {service : RuntimeService} {network : Network}
    {settings : Settings} (hs : Decodable service) (hn : network.channels.opened = []) :
    Strands fs service network settings ↔
      (∃ fault, (Engine.start fs service network settings).engine = .error fault) ∧
        (Engine.start fs service network settings).network.channels.opened ≠ [] := by
  simp only [Engine.start_eq_error, Engine.start_network]
  constructor
  · rintro ⟨tried, hh, htried⟩
    obtain ⟨hfault, hopened⟩ := fault_of_halts hs hh
    exact ⟨hfault, fun he => htried (hopened.mp he).2⟩
  · rintro ⟨⟨fault, hf⟩, ho⟩
    obtain ⟨tried, hh⟩ := halts_of_fault hs hf
    exact ⟨tried, hh, fun he => ho ((fault_of_halts hs hh).2.mpr ⟨hn, he⟩)⟩

namespace Program

variable {world : Surroundings} {session : Session}

/-- A run that starts without open channels closes all that it opens, unless it comes to processes and
its engine strands. It then ends in a fault, so that every run with an exit code closes them. -/
theorem closes_unless_stranded (hs : Decodable world.service)
    (hn : session.network.channels.opened = []) (args : List String) :
    let r := run world session args
    (r.session.network.channels.opened = [] ↔
      processes world args = [] ∨ ¬Strands world.fs world.service session.network world.settings) ∧
    ∀ code, r.exit = .ok code → r.session.network.channels.opened = [] := by
  intro r
  by_cases hp : processes world args = []
  · have hsame : r.session = session := (run_of_processes_eq_nil hp session).1
    rw [hsame, hn]
    exact ⟨iff_of_true rfl (.inl hp), fun _ _ => rfl⟩
  · obtain ⟨_, hrun⟩ := run_of_processes_ne_nil hp session
    have hstrands : Strands world.fs world.service session.network world.settings ↔
        (∃ fault, (startup world session).engine = .error fault) ∧
          (startup world session).network.channels.opened ≠ [] := strands_iff hs hn
    rw [hstrands]
    cases he : (startup world session).engine with
    | ok engine =>
      obtain ⟨p, _, _, _, hscan⟩ := scanPids_of_engine he (processes world args)
      have hclosed : r.session.network.channels.opened = [] := by
        rw [show r = _ from hrun, hscan]
        rfl
      exact ⟨iff_of_true hclosed (.inr (by simp)), fun _ _ => hclosed⟩
    | error fault =>
      have hscan := scanPids_of_fault he (processes world args)
      have hexit : r.exit = .error fault := by rw [show r = _ from hrun, hscan]
      have hleft : r.session.network.channels = (startup world session).network.channels := by
        rw [show r = _ from hrun, hscan]
        rfl
      rw [hleft]
      refine ⟨?_, fun code hx => ?_⟩
      · simp [hp]
      · rw [hexit] at hx
        cases hx

end Program

namespace Stranded

open Program

/-- A host with two candidates, the first of which is a socket. -/
def world (service : RuntimeService) (second : SocketName) : Surroundings where
  settings := { hostRoot := "h", containerdSockets := [.text "/a", second] }
  fs :=
    { isSocket := fun _ => .ok true
      read := fun _ => .error .missing
      list := fun _ => .error .missing }
  service := service
  hostname := "node"

/-- A name with a null character, and one with a surrogate that has no partner. -/
def null : SocketName := .text "/b\x00"

def stray : SocketName := .unpaired [0xd800] rfl

def answering : RuntimeService := fun _ _ _ => .ok []

def failing : RuntimeService := fun _ _ _ => .error (.status "UNAVAILABLE" none)

theorem answering_decodable : Decodable answering := by
  intro target earlier request bytes h
  obtain rfl := Except.ok.inj h
  exact ⟨{}, Wire.ListResponse.decode_nil⟩

/-- The first socket answers, so that the second is not looked at. -/
theorem closes_behind_answer :
    Decodable answering ∧ processes (world answering stray) ["1"] ≠ [] ∧
      ((run (world answering stray) {} ["1"]).session.network.channels.opened = [] ↔
        processes (world answering stray) ["1"] = [] ∨
          ¬Strands (world answering stray).fs answering {} (world answering stray).settings) ∧
      ∀ code, (run (world answering stray) {} ["1"]).exit = .ok code →
        (run (world answering stray) {} ["1"]).session.network.channels.opened = [] :=
  ⟨answering_decodable, by decide,
    @closes_unless_stranded (world answering stray) {} answering_decodable rfl ["1"]⟩

theorem failing_decodable : Decodable failing := by
  intro target earlier request bytes h
  cases h

/-- The first socket fails. The name behind it ends the run, and its channel stays open. -/
theorem leaves_channel_open :
    Decodable failing ∧
      (run (world failing null) {} ["1"]).exit = .error .nullInPath ∧
      (run (world failing null) {} ["1"]).session.network.channels.opened =
        [⟨0, "unix:///h/a", Client.channelOptions⟩] ∧
      (run (world failing stray) {} ["1"]).exit = .error (.notEncodable ⟨1, [0xd800]⟩) ∧
      (run (world failing stray) {} ["1"]).session.network.channels.opened =
        [⟨0, "unix:///h/a", Client.channelOptions⟩] :=
  ⟨failing_decodable, by decide +kernel⟩

end Stranded
end Attribution
