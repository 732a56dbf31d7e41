import Attribution.Program.Host

namespace Attribution

/-- Stands for what the reader of specifications finds wrong, which is in its own words. -/
def complaint (_ : List UInt8) : String := "..."

/-- Writes what a run brought, and gives its exit code. -/
def writeRun (time : String) (run : Run) : IO UInt32 := do
  for line in run.stdout do IO.println line
  for event in run.events do
    let bits ← IO.rand 0 (Nat.pow 2 122 - 1)
    match event.line ⟨Stamp.randomId bits, time⟩ with
    | .ok line => IO.println line
    | .error fault => IO.eprintln fault.message
  for line in run.log do IO.eprintln (Log.format complaint (Log.clock time) line)
  for line in run.stderr do IO.eprintln line
  match run.exit with
  | .ok code => return UInt32.ofNat code
  | .error fault =>
    IO.eprintln fault.message
    return 1

end Attribution

open Attribution in
def main (args : List String) : IO UInt32 := do
  let line ← (← IO.getStdin).getLine
  match Host.read? line with
  | none =>
    IO.eprintln "the host is not described in JSON"
    return 1
  | some host =>
    match Host.surroundings host with
    | .error e =>
      IO.eprintln e.message
      return 1
    | .ok world =>
      writeRun ((Json.textAt? host "time").getD "1970-01-01T00:00:00Z") (Program.run world {} args)
