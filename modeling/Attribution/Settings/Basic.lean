import Attribution.Text.Utf8

namespace Attribution

/-- The name of a socket as it is configured, or the path that it becomes. -/
inductive SocketName where
  | text (name : String)
  /-- A name that no text can hold, by its code points. -/
  | unpaired (points : List Nat) (stray : points.any Utf8.isSurrogate = true)
  deriving DecidableEq, Repr

/-- The path of a name under a root. -/
def SocketName.under (root : String) : SocketName → SocketName
  | .text name => .text (root ++ name)
  | .unpaired points stray =>
    .unpaired (root.toList.map Char.toNat ++ points) (by rw [List.any_append, stray, Bool.or_true])

/-- What can be configured, with the values that hold when nothing is. -/
structure Settings where
  /-- What stands before every path of the host. -/
  hostRoot : String := ""
  cgroupRoot : String := "/sys/fs/cgroup"
  procRoot : String := "/proc"
  /-- The sockets to try, in order. -/
  containerdSockets : List SocketName :=
    [.text "/run/host-containerd/containerd.sock", .text "/run/containerd/containerd.sock",
      .text "/run/containerd/runtime2/containerd.sock"]
  containerdNamespace : String := "default"
  runtimeTimeoutMs : Int := 1000
  labelMaxLength : Int := 100
  logLevel : String := "INFO"
  deriving DecidableEq, Repr

end Attribution
