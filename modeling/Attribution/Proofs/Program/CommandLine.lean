import Attribution.Program.CommandLine
import Attribution.Proofs.Fault
import Attribution.Proofs.Text.Integer

namespace Attribution.CommandLine

theorem writable_of_readPids {texts : List String} {pids : List Int}
    (h : readPids texts = .ok pids) : ∀ pid ∈ pids, Text.writable pid = true := by
  intro pid hm
  obtain ⟨text, _, ht⟩ := exists_of_mem_mapM h hm
  split at ht
  next n hn =>
    obtain rfl := Except.ok.inj ht
    exact Text.writable_of_readInteger (Text.readInteger_of_integer? hn)
  next => cases ht

theorem writable_of_finish {p : Parsed} {pids : List Int} {all : Bool}
    (hp : ∀ pid ∈ p.pids.getD [], Text.writable pid = true) (h : finish p = .scan pids all) :
    ∀ pid ∈ pids, Text.writable pid = true := by
  unfold finish at h
  split at h
  · obtain ⟨rfl, _⟩ := Command.scan.inj h
    exact hp
  · cases h

theorem writable_of_interpret {steps : Nat} {p : Parsed} {ws : List Word} {pids : List Int}
    {all : Bool} (hp : ∀ pid ∈ p.pids.getD [], Text.writable pid = true)
    (h : interpret steps p ws = .scan pids all) : ∀ pid ∈ pids, Text.writable pid = true := by
  fun_induction interpret steps p ws with
  | case1 p ws => exact writable_of_finish hp h
  | case2 steps p => exact writable_of_finish hp h
  | case3 => cases h
  | case4 => cases h
  | case5 steps p short tail rest _ ih => exact ih hp h
  | case6 steps p s rest ih => exact ih hp h
  | case7 steps p ws _ _ _ texts rest _ found _ ih => exact ih hp h
  | case8 => cases h
  | case9 steps p ws _ _ _ texts rest _ _ found hr ih => exact ih (writable_of_readPids hr) h

theorem writable_of_parse {args : List String} {pids : List Int} {all : Bool}
    (h : parse args = .scan pids all) : ∀ pid ∈ pids, Text.writable pid = true := by
  unfold parse at h
  split at h
  next => cases h
  next ws _ => exact writable_of_interpret (by simp) h

end Attribution.CommandLine
