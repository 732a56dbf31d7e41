import Attribution.Containerd.Channel
import Attribution.Containerd.Deadline
import Attribution.Wire.Container

namespace Attribution

inductive RpcError where
  /-- A failure with a status code and perhaps details. -/
  | status (code : String) (details : Option String)
  | plain (text : String)
  deriving DecidableEq, Repr

def RpcError.message : RpcError → String
  | .status code details => code ++ ": " ++ details.getD "None"
  | .plain text => if text = "" then "RpcError" else text

abbrev Reply := Except RpcError Wire.Bytes

/-- The far side: how a target answers a request after so many earlier ones. -/
abbrev RuntimeService := String → Nat → Wire.Bytes → Reply

def listMethod : String := "/containerd.services.containers.v1.Containers/List"

def namespaceKey : String := "containerd-namespace"

/-- A call that was made. -/
structure Call where
  channel : Nat
  target : String
  method : String
  request : Wire.Bytes
  timeout : String
  metadata : List (String × String)
  deriving DecidableEq, Repr

/-- The channels and the calls made over them, in order. -/
structure Network where
  channels : Channels := {}
  calls : List Call := []
  deriving DecidableEq, Repr

inductive ClientState where
  | unbound
  | bound
  | broken
  deriving DecidableEq, Repr

def ClientState.name : ClientState → String
  | .unbound => "unbound"
  | .bound => "bound"
  | .broken => "broken"

/-- The state after a handshake that was answered, or failed. -/
def ClientState.next (state : ClientState) (answered : Bool) : ClientState :=
  if answered then (if state = .unbound then .bound else state) else .broken

structure Client where
  socketPath : String
  channel : Channel
  ns : String
  timeoutMs : Int
  state : ClientState := .unbound
  deriving DecidableEq, Repr

namespace Client

/-- A socket is never reached through a proxy. -/
def channelOptions : List (String × OptionValue) := [("grpc.enable_http_proxy", .number 0)]

def isOk (client : Client) : Bool := client.state == .bound

/-- What a call brings: a fault, an error of the runtime, or the containers. -/
abbrev ListAnswer := Except Fault (Except RpcError Wire.ListResponse)

def readReply : Reply → ListAnswer
  | .error e => .ok (.error e)
  | .ok bytes =>
    match Wire.ListResponse.decode bytes with
    | none => .error .undecodable
    | some response => .ok (.ok response)

/-- The call of a request with its deadline. -/
def callOf (client : Client) (request : Wire.Bytes) (timeout : String) : Call :=
  ⟨client.channel.number, client.channel.target, listMethod, request, timeout,
    [(namespaceKey, client.ns)]⟩

def call (service : RuntimeService) (network : Network) (client : Client)
    (request : Wire.ListRequest) : ListAnswer × Network :=
  match Deadline.text? client.timeoutMs with
  | none => (.error .endlessTimeout, network)
  | some timeout =>
    if network.channels.isOpen client.channel then
      let target := client.channel.target
      let earlier := (network.calls.filter fun c => c.target == target).length
      let bytes := request.encode
      (readReply (service target earlier bytes),
        { network with calls := network.calls ++ [client.callOf bytes timeout] })
    else (.error .closedChannel, network)

/-- The request for the containers whose id contains a fragment. -/
def fragmentRequest (fragment : String) : Wire.ListRequest := { filters := ["id~=" ++ fragment] }

def listByFragment (service : RuntimeService) (network : Network) (client : Client)
    (fragment : String) : ListAnswer × Network :=
  client.call service network (fragmentRequest fragment)

structure Handshake where
  answer : Except Fault Bool
  client : Client
  network : Network
  log : List LogLine := []

/-- Lists all containers, which shows whether the socket answers. -/
def handshake (service : RuntimeService) (network : Network) (client : Client) : Handshake :=
  match client.call service network {} with
  | (.error fault, network) => ⟨.error fault, client, network, []⟩
  | (.ok (.error e), network) =>
    ⟨.ok false, { client with state := client.state.next false }, network,
      [Log.info "containerd.client"
        ("containerd (" ++ client.socketPath ++
          "): runtime returned an error while listing containers: " ++ e.message)]⟩
  | (.ok (.ok _), network) =>
    let client := { client with state := client.state.next true }
    ⟨.ok client.isOk, client, network, []⟩

/-- What comes of making a client: the client, or the fault that its making ends with. -/
structure Connection where
  client : Except Fault Client
  network : Network
  log : List LogLine := []

/-- Makes a client and has it shake hands. -/
def connect (service : RuntimeService) (network : Network) (socketPath ns : String)
    (timeoutMs : Int) : Connection :=
  match socketTarget socketPath with
  | .error fault => ⟨.error fault, network, []⟩
  | .ok target =>
    let (channel, channels, opened) := network.channels.get target channelOptions
    let shaken :=
      handshake service { network with channels } { socketPath, channel, ns, timeoutMs }
    ⟨shaken.answer.map fun _ => shaken.client, shaken.network, opened ++ shaken.log⟩

end Client
end Attribution
