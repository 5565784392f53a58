import AcousticNode.Module.Basic

/-!
# Node configuration

Addressing, the graph of operation modes and a reporting schedule for each transport.  A
configuration changes one module at a time; a list of modules is applied to a copy, which is
checked once at the end.
-/

set_option autoImplicit false

namespace AcousticNode

/-- The settings of a node. -/
structure Configuration where
  localAddress : Address
  /-- From destination to next hop. -/
  routes : Table Address Address
  gateway : Address
  graph : ModeGraph
  lora : Reporting
  iridium : Reporting
  deriving DecidableEq

namespace Configuration

/-- A node that has not been set up: it answers to every address, stays in mode 0, and sends a
basic report every quarter of an hour. -/
def default : Configuration where
  localAddress := .broadcast
  routes := Table.empty
  gateway := .backend
  graph := Table.empty.insert 0 ⟨0, 1⟩
  lora := ⟨.lora, Table.empty.insert 0 ⟨15, .basic⟩⟩
  iridium := ⟨.iridium, Table.empty.insert 0 ⟨15, .basic⟩⟩

instance : Inhabited Configuration := ⟨default⟩

/-- A configuration has a closed graph with at least one mode, and its schedules are in their
places. -/
def validate (c : Configuration) : Except ConfigurationFlaw Unit := do
  ModeGraph.validate c.graph
  if c.lora.transport ≠ .lora then .error (.foreignSchedule .lora)
  else if c.iridium.transport ≠ .iridium then .error (.foreignSchedule .iridium)
  else .ok ()

/-- Takes over what one module says, if it is about the configuration. -/
def apply (c : Configuration) : Module → Except Fault Configuration
  | .network n =>
    .ok { c with localAddress := n.localAddress, routes := n.routes, gateway := n.gateway }
  | .modeGraph g => .ok { c with graph := g }
  | .reporting r =>
    match r.transport with
    | .lora => .ok { c with lora := r }
    | .iridium => .ok { c with iridium := r }
  | other => .error (.payload (.notConfiguration other.code))

/-- Takes over what each module of a list says. -/
def applyAll (c : Configuration) : List Module → Except Fault Configuration
  | [] => .ok c
  | m :: ms => do
    let c ← c.apply m
    applyAll c ms

/-- Whether a configuration is valid, as a fault. -/
def check (c : Configuration) : Except Fault Unit := c.validate.mapError .configuration

/-- The configuration with every module of a list applied, if the result is valid. -/
def withModules (c : Configuration) (ms : List Module) : Except Fault Configuration := do
  let updated ← c.applyAll ms
  updated.check
  return updated

/-- The addressing of a configuration. -/
def network (c : Configuration) : Network := ⟨c.localAddress, c.routes, c.gateway⟩

end Configuration

end AcousticNode
