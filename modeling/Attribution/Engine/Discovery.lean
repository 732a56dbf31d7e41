import Attribution.Containerd.Client
import Attribution.Files.Access
import Attribution.Settings.Basic

namespace Attribution

/-- Whether a path leads to a socket. In a path that is no text some surrogates stand for bytes. -/
def FileSystem.nameLeadsToSocket (fs : FileSystem) : SocketName → Except Fault Bool
  | .text path => fs.leadsToSocket path
  | .unpaired points _ =>
    match Utf8.nameBytes points with
    | .error e => .error (.notEncodable e)
    | .ok bytes => if points.contains 0 then .error .nullInPath else .ok (fs.hasSocketAt bytes)

/-- The path of a candidate under the host's root if a socket is there. An empty candidate has none. -/
def runtimeSocket? (fs : FileSystem) (hostRoot : String) (name : SocketName) :
    Except Fault (Option SocketName) :=
  if name = .text "" then .ok none
  else
    (fs.nameLeadsToSocket (name.under hostRoot)).map fun b =>
      if b then some (name.under hostRoot) else none

/-- The candidates that are sockets, in order. -/
def runtimeSockets (fs : FileSystem) (hostRoot : String) (names : List SocketName) :
    Except Fault (List SocketName) :=
  names.filterMapM (runtimeSocket? fs hostRoot)

/-- The first of the candidates that is a socket. Those behind it are not looked at. -/
def firstRuntimeSocket (fs : FileSystem) (hostRoot : String) (names : List SocketName) :
    Except Fault (Option SocketName) :=
  names.findSomeM? (runtimeSocket? fs hostRoot)

/-- Makes a client for the socket at a path. -/
def Settings.reach (settings : Settings) (service : RuntimeService) (network : Network)
    (path : String) : Client.Connection :=
  Client.connect service network path settings.containerdNamespace settings.runtimeTimeoutMs

/-- Makes a client for the socket at a path. Targets are in UTF-8, so that there is none for a path
that no text can hold. -/
def SocketName.connect (settings : Settings) (service : RuntimeService) (network : Network) :
    SocketName → Client.Connection
  | .text path => settings.reach service network path
  | .unpaired points _ =>
    ⟨.error (.notEncodable (Utf8.refusal Utf8.isSurrogate (unpairedTarget points))), network, []⟩

/-- What comes of trying candidates: the client, if one answers, or the fault that ends the search. -/
structure Discovery where
  client : Except Fault (Option Client)
  network : Network
  log : List LogLine := []

/-- Puts earlier lines of the log before those of a discovery. -/
def Discovery.after (log : List LogLine) (d : Discovery) : Discovery := { d with log := log ++ d.log }

/-- Tries the candidates in order. The first whose socket is there and answers a handshake is used for
good. -/
def discover (fs : FileSystem) (service : RuntimeService) (settings : Settings)
    (network : Network) : List SocketName → Discovery
  | [] => ⟨.ok none, network, []⟩
  | name :: names =>
    match runtimeSocket? fs settings.hostRoot name with
    | .error fault => ⟨.error fault, network, []⟩
    | .ok none => discover fs service settings network names
    | .ok (some path) =>
      let c := path.connect settings service network
      match c.client with
      | .error fault => ⟨.error fault, c.network, c.log⟩
      | .ok client =>
        if client.isOk then
          ⟨.ok (some client), c.network,
            c.log ++ [Log.info "containerd" ("containerd: using runtime socket " ++ client.socketPath)]⟩
        else (discover fs service settings c.network names).after c.log

end Attribution
