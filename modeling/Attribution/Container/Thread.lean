import Attribution.Cgroup.Layout
import Attribution.Files.Access
import Attribution.Text.Integer

namespace Attribution

structure Thread where
  tid : Int
  pid : Int := 0
  comm : String := ""
  cgroups : List Membership := []
  containerId : String := ""
  deriving DecidableEq, Repr, Inhabited

namespace Thread

/-- The path of the cgroup that a controller keeps the thread in. -/
def cgroup (thread : Thread) (subsystem : String) : String :=
  Membership.pathOf thread.cgroups subsystem

/-- The command of a process; a file that cannot be read leaves it empty. -/
def readComm (fs : FileSystem) (base : String) : Except Fault String :=
  (fs.readText? (joinPath base "comm")).map fun text =>
    match text with
    | none => ""
    | some s => String.ofList (Text.strip s.toList)

def readCgroups (fs : FileSystem) (base : String) : Except Fault (List Membership) :=
  (fs.readText? (joinPath base "cgroup")).map fun text =>
    match text with
    | none => []
    | some s => Membership.parse s

/-- The main thread of a process, read from its directory. -/
def read (fs : FileSystem) (procRoot : String) (pid : Int) : Except Fault Thread :=
  if Text.writable pid then do
    let base := joinPath procRoot (String.ofList (Text.integerText pid))
    let comm ← readComm fs base
    let cgroups ← readCgroups fs base
    return { tid := pid, pid, comm, cgroups }
  else .error .unwritable

end Thread
end Attribution
