import Attribution.Fault
import Attribution.Log.Line
import Attribution.Text.Cut

namespace Attribution

/-- The scheme of targets that are sockets. -/
def socketScheme : String := "unix://"

/-- The path that a socket names, whether its name is a plain path, a target, or a target that lacks
the first slash. -/
def rootedPath {α : Type} [DecidableEq α] (scheme : List α) (slash : α) (socket : List α) : List α :=
  let path := (Text.dropWord? scheme socket).getD socket
  if path.head? = some slash then path else slash :: path

/-- The target that a socket is reached under. -/
def socketTarget (socket : String) : Except Fault String :=
  if socket = "" then .error .emptyTarget
  else .ok (socketScheme ++ String.ofList (rootedPath socketScheme.toList '/' socket.toList))

/-- The code points of the target of a path that no text can hold. -/
def unpairedTarget (points : List Nat) : List Nat :=
  let scheme := socketScheme.toList.map Char.toNat
  scheme ++ rootedPath scheme '/'.toNat points

inductive OptionValue where
  | number (value : Int)
  | text (value : String)
  | truth (value : Bool)
  | missing
  deriving DecidableEq, Repr

namespace OptionValue

/-- The value that stands for all that count as the same: a truth value is one or zero. -/
def plain : OptionValue → OptionValue
  | truth b => number (if b then 1 else 0)
  | v => v

end OptionValue

structure Channel where
  number : Nat
  target : String
  options : List (String × OptionValue)
  deriving DecidableEq, Repr

/-- The open channels and how many there have ever been. -/
structure Channels where
  created : Nat := 0
  opened : List Channel := []
  deriving DecidableEq, Repr

namespace Channels

/-- Options with their values made plain, by which a channel is known. -/
def plainOptions (options : List (String × OptionValue)) : List (String × OptionValue) :=
  options.map fun p => (p.1, p.2.plain)

def find? (channels : Channels) (target : String) (options : List (String × OptionValue)) :
    Option Channel :=
  channels.opened.find? fun c =>
    c.target == target && plainOptions c.options == plainOptions options

/-- The channel for a target and options, opened if there is none, with the lines logged. -/
def get (channels : Channels) (target : String) (options : List (String × OptionValue)) :
    Channel × Channels × List LogLine :=
  match channels.find? target options with
  | some channel => (channel, channels, [])
  | none =>
    let channel : Channel := ⟨channels.created, target, options⟩
    (channel, ⟨channels.created + 1, channels.opened ++ [channel]⟩,
      [Log.debug "channels" ("Opened gRPC channel → " ++ target)])

def isOpen (channels : Channels) (channel : Channel) : Bool :=
  channels.opened.any fun c => c.number == channel.number

def closeAll (channels : Channels) : Channels := { channels with opened := [] }

end Channels
end Attribution
