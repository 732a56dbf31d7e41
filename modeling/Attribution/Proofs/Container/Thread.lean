import Attribution.Container.Thread
import Attribution.Proofs.Files.Access
import Attribution.Proofs.Text.Written

namespace Attribution

namespace Membership

theorem isPath_unifiedPath {memberships : List Membership}
    (h : ∀ m ∈ memberships, IsPath m.path) : IsPath (unifiedPath memberships) := by
  induction memberships with
  | nil => decide
  | cons m memberships ih =>
    unfold unifiedPath
    split
    · exact h m (by simp)
    · exact ih fun n hn => h n (List.mem_cons_of_mem m hn)

theorem isPath_pathOf {memberships : List Membership} (h : ∀ m ∈ memberships, IsPath m.path)
    (subsystem : String) : IsPath (pathOf memberships subsystem) := by
  unfold pathOf
  split
  next m hf => exact h m (List.mem_of_find?_eq_some hf)
  next => exact isPath_unifiedPath h

end Membership

namespace Thread

/-- The directory of a process. -/
def directory (procRoot : String) (pid : Int) : String :=
  joinPath procRoot (String.ofList (Text.integerText pid))

def commFile (procRoot : String) (pid : Int) : String := joinPath (directory procRoot pid) "comm"

def cgroupFile (procRoot : String) (pid : Int) : String := joinPath (directory procRoot pid) "cgroup"

/-- A process with the texts of its two files. A part without a text is empty. -/
def ofTexts (pid : Int) (comm cgroup : Option String) : Thread where
  tid := pid
  pid := pid
  comm := (comm.map fun s => String.ofList (Text.strip s.toList)).getD ""
  cgroups := (cgroup.map Membership.parse).getD []

/-- What the files of a process show. -/
def shown (fs : FileSystem) (procRoot : String) (pid : Int) : Thread :=
  ofTexts pid (fs.shownText? (commFile procRoot pid)) (fs.shownText? (cgroupFile procRoot pid))

variable {fs : FileSystem} {procRoot : String} {pid : Int}

theorem isPath_directory (h : IsPath procRoot) (pid : Int) : IsPath (directory procRoot pid) := by
  apply isPath_joinPath h
  have hdigits : ∀ n : Nat, '\x00' ∉ Text.natText n := Text.notMem_natText rfl
  unfold IsPath Text.integerText
  rw [String.toList_ofList]
  split
  · simpa using hdigits pid.natAbs
  · exact hdigits pid.natAbs

theorem readComm_eq : readComm fs (directory procRoot pid) =
    (fs.readText? (commFile procRoot pid)).map fun comm => (ofTexts pid comm none).comm := by
  unfold readComm commFile
  congr 1
  funext comm
  cases comm <;> rfl

theorem readCgroups_eq : readCgroups fs (directory procRoot pid) =
    (fs.readText? (cgroupFile procRoot pid)).map fun cgroup => (ofTexts pid none cgroup).cgroups := by
  unfold readCgroups cgroupFile
  congr 1
  funext cgroup
  cases cgroup <;> rfl

theorem read_eq (hw : Text.writable pid = true) :
    read fs procRoot pid = do
      let comm ← fs.readText? (commFile procRoot pid)
      let cgroup ← fs.readText? (cgroupFile procRoot pid)
      return ofTexts pid comm cgroup := by
  have hr : read fs procRoot pid = do
      let comm ← readComm fs (directory procRoot pid)
      let cgroups ← readCgroups fs (directory procRoot pid)
      return { tid := pid, pid, comm, cgroups } := if_pos hw
  rw [hr, readComm_eq, readCgroups_eq]
  cases fs.readText? (commFile procRoot pid) with
  | error fault => rfl
  | ok comm =>
    cases fs.readText? (cgroupFile procRoot pid) with
    | error fault => rfl
    | ok cgroup => rfl

theorem read_eq_ok {thread : Thread} (h : read fs procRoot pid = .ok thread) :
    Text.writable pid = true ∧
      (fs.Legible (commFile procRoot pid) ∧ fs.Legible (cgroupFile procRoot pid)) ∧
      thread = shown fs procRoot pid := by
  have hw : Text.writable pid = true := by
    unfold read at h
    split at h
    next hw => exact hw
    next => simp at h
  rw [read_eq hw] at h
  cases hc : fs.readText? (commFile procRoot pid) with
  | error fault => simp [hc, bind, Except.bind] at h
  | ok comm =>
    cases hg : fs.readText? (cgroupFile procRoot pid) with
    | error fault => simp [hc, hg, bind, Except.bind] at h
    | ok cgroup =>
      obtain ⟨hcomm, rfl⟩ := FileSystem.readText?_eq_ok hc
      obtain ⟨hcgroup, rfl⟩ := FileSystem.readText?_eq_ok hg
      simp only [hc, hg] at h
      exact ⟨hw, ⟨hcomm, hcgroup⟩, (Except.ok.inj h).symm⟩

theorem read_of_legible (hw : Text.writable pid = true) (hp : IsPath procRoot)
    (hcomm : fs.Legible (commFile procRoot pid)) (hcgroup : fs.Legible (cgroupFile procRoot pid)) :
    read fs procRoot pid = .ok (shown fs procRoot pid) := by
  have hd := isPath_directory hp pid
  have hc : IsPath (commFile procRoot pid) := isPath_joinPath hd (by decide)
  have hg : IsPath (cgroupFile procRoot pid) := isPath_joinPath hd (by decide)
  rw [read_eq hw, FileSystem.readText?_of_legible hc hcomm,
    FileSystem.readText?_of_legible hg hcgroup]
  rfl

end Thread
end Attribution
