import Attribution.Cgroup.CpuSet
import Attribution.Files.Access

namespace Attribution

structure Limits where
  memory : Int := 0
  cpuShares : Int := 0
  cpuQuota : Int := 0
  cpuPeriod : Int := 0
  cpusetCount : Int := 0
  deriving DecidableEq, Repr, Inhabited

/-- A container and the paths under which its limits are found. -/
structure LimitsKey where
  containerId : String
  cpu : String
  memory : String
  cpuset : String
  deriving DecidableEq, Repr

namespace Limits

/-- The kernel's number for memory without limit. -/
def unlimitedMemory : Int := 0x7FFFFFFFFFFFF000

/-- The path without the slashes it begins with. -/
def relative (path : String) : String := String.ofList (path.toList.dropWhile (· = '/'))

/-- The places of one file, the controller's own first. -/
def places (root controller cgroup file : String) : List String :=
  let rel := relative cgroup
  [joinPath (joinPath (joinPath root controller) rel) file, joinPath (joinPath root rel) file]

/-- The text of the first of the files that can be read. -/
def readFirst? (fs : FileSystem) : List String → Except Fault (Option String)
  | [] => .ok none
  | path :: paths => do
    match ← fs.readText? path with
    | some text => return some (String.ofList (Text.strip text.toList))
    | none => readFirst? fs paths

/-- The text of a controller's file for a cgroup. A cgroup without a path has none. -/
def read? (fs : FileSystem) (root controller cgroup file : String) : Except Fault (Option String) :=
  if cgroup = "" then .ok none else readFirst? fs (places root controller cgroup file)

def number? (text : Option String) : Option Int := text.bind fun s => Text.integer? s.toList

def readNumber? (fs : FileSystem) (root controller cgroup file : String) :
    Except Fault (Option Int) :=
  (read? fs root controller cgroup file).map number?

/-- The number if it is above 0, else 0. -/
def positive (n : Option Int) : Int :=
  match n with
  | some n => if 0 < n then n else 0
  | none => 0

/-- The shares that stand for a weight: 1 to 10000 are spread over 2 to 262144. -/
def sharesOfWeight (weight : Int) : Int := 2 + Int.fdiv ((weight - 1) * 262142) 9999

def readMemory (fs : FileSystem) (root cgroup : String) : Except Fault Int := do
  let first ← readNumber? fs root "memory" cgroup "memory.limit_in_bytes"
  let limit ←
    match first with
    | some n => pure (some n)
    | none => readNumber? fs root "memory" cgroup "memory.max"
  match limit with
  | none => return 0
  | some n => return if n ≤ 0 ∨ unlimitedMemory ≤ n then 0 else n

def readShares (fs : FileSystem) (root cgroup : String) : Except Fault Int := do
  match ← readNumber? fs root "cpu" cgroup "cpu.shares" with
  | some shares => return positive (some shares)
  | none =>
    let weight ← readNumber? fs root "cpu" cgroup "cpu.weight"
    return positive ((weight.filter (0 < ·)).map sharesOfWeight)

/-- Quota and period as the one file of the second version has them, with a space between. -/
def splitMax (text : String) : Option Int × Option Int :=
  let (quota, period) := Text.cutFirst ' ' text.toList
  (Text.integer? quota, Text.integer? (period.getD []))

/-- Quota and period, both from the first version unless it has neither. -/
def readBandwidth (fs : FileSystem) (root cgroup : String) : Except Fault (Int × Int) := do
  let quota ← readNumber? fs root "cpu" cgroup "cpu.cfs_quota_us"
  let period ← readNumber? fs root "cpu" cgroup "cpu.cfs_period_us"
  if quota = none ∧ period = none then
    match ← read? fs root "cpu" cgroup "cpu.max" with
    | none => return (0, 0)
    | some text =>
      let (quota, period) := splitMax text
      return (positive quota, positive period)
  else return (positive quota, positive period)

def readCpusetCount (fs : FileSystem) (root cgroup : String) : Except Fault Int := do
  let first ← read? fs root "cpuset" cgroup "cpuset.effective_cpus"
  let cpus ←
    match first with
    | some text => pure (some text)
    | none => read? fs root "cpuset" cgroup "cpuset.cpus.effective"
  match cpus with
  | none => return 0
  | some text => return CpuSet.count text

/-- The limits of the cgroups that a key names. -/
def read (fs : FileSystem) (root : String) (key : LimitsKey) : Except Fault Limits := do
  let memory ← readMemory fs root key.memory
  let shares ← readShares fs root key.cpu
  let (quota, period) ← readBandwidth fs root key.cpu
  let count ← readCpusetCount fs root key.cpuset
  return ⟨memory, shares, quota, period, count⟩

end Limits
end Attribution
