import AcousticNode.Fault

/-!
# Network settings

The node's own address, static routes and the default gateway.  The value of a network record
is the address, a pair of octets for each route, and the gateway.
-/

set_option autoImplicit false

namespace AcousticNode

/-- Addressing of a node. -/
structure Network where
  localAddress : Address
  /-- From destination to next hop. -/
  routes : Table Address Address
  gateway : Address
  deriving DecidableEq

namespace Network

/-- The octets of a list of routes. -/
def writeRoutes : List (Address × Address) → Bytes
  | [] => []
  | (destination, hop) :: rest => destination.value :: hop.value :: writeRoutes rest

/-- The value of a network record; routes ascend by destination. -/
def write (n : Network) : Bytes :=
  n.localAddress.value :: (writeRoutes n.routes.entries ++ [n.gateway.value])

/-- Pairs of octets followed by a single one. -/
def splitRoutes : Bytes → Option (List (Address × Address) × Address)
  | [] => none
  | [gateway] => some ([], ⟨gateway⟩)
  | destination :: hop :: rest =>
    (splitRoutes rest).map fun (routes, gateway) => ((⟨destination⟩, ⟨hop⟩) :: routes, gateway)

/-- The least length of a network value that has room for `size` octets. -/
def fittingLength (size : Nat) : Nat := if size < 2 then 2 else size + size % 2

/-- Reads the value of a network record.  Its length is even and at least two, and no
destination occurs twice. -/
def read (value : Bytes) : Except Fault Network :=
  let misfit : Fault := .valueLength .network (fittingLength value.length) value.length
  match value with
  | [] => .error misfit
  | localAddress :: rest =>
    match splitRoutes rest with
    | none => .error misfit
    | some (routes, gateway) => do
      let table ← Table.ofDistinct (fun d => .payload (.repeatedRoute d)) routes
      return ⟨⟨localAddress⟩, table, gateway⟩

end Network

end AcousticNode
