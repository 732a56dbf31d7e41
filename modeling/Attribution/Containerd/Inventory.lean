import Attribution.Containerd.Client

namespace Attribution

/-- A reply that was written down. -/
inductive Scripted where
  | containers (containers : List Wire.Container)
  | bytes (bytes : Wire.Bytes)
  | error (error : RpcError)

structure Inventory where
  containers : List Wire.Container := []
  /-- The replies to the first requests, where they are not those of the containers. -/
  script : List (Option Scripted) := []

namespace Inventory

/-- The fragment that a filter asks for. -/
def fragment? (filter : String) : Option (List Char) := Text.dropWord? "id~=".toList filter.toList

def passes (container : Wire.Container) (filter : String) : Bool :=
  match fragment? filter with
  | none => true
  | some fragment => Text.occursIn fragment container.id.toList

/-- The containers that pass all filters, in order. -/
def select (containers : List Wire.Container) (filters : List String) : List Wire.Container :=
  containers.filter fun c => filters.all (passes c)

def respond (containers : List Wire.Container) : Reply :=
  .ok (Wire.ListResponse.encode { containers })

def answer (inventory : Inventory) (earlier : Nat) (request : Wire.Bytes) : Reply :=
  match inventory.script[earlier]? with
  | some (some (.containers containers)) => respond containers
  | some (some (.bytes bytes)) => .ok bytes
  | some (some (.error e)) => .error e
  | _ =>
    match Wire.ListRequest.decode request with
    | none => .error (.status "INVALID_ARGUMENT" none)
    | some r => respond (select inventory.containers r.filters)

/-- The service of the inventories at their targets. -/
def service (inventories : List (String × Inventory)) : RuntimeService :=
  fun target earlier request =>
    match Assoc.find? inventories target with
    | none => .error (.status "UNAVAILABLE" (some "no such server"))
    | some inventory => inventory.answer earlier request

end Inventory
end Attribution
