import AcousticNode.HydrophoneCache
import AcousticNode.Packet
import AcousticNode.Store.Basic

/-!
# Routines

What a node does for a request, or on its own schedule when there is no request.  A routine
looks at the peripherals and works on the node's memory: its configuration store and its
hydrophone cache.  It answers with a packet or fails; what it has written by then stays.
-/

set_option autoImplicit false

namespace AcousticNode

/-- What the hardware reads. -/
structure Peripherals where
  battery : Battery
  location : Location
  /-- Time of the last position fix that the clock is set from.  It is zero or less if there was no
  fix, and likewise if the clock is not the node's own and ignores being set. -/
  fixTime : Int64
  clock : Clock
  deriving DecidableEq

/-- The peripherals with the clock set to the time of the last fix, if there was one and the clock is
the node's own.  The fix time serves nothing else. -/
def Peripherals.synchronised (p : Peripherals) : Peripherals :=
  if 0 < p.fixTime then { p with clock := ⟨p.fixTime⟩ } else p

/-- What a routine looks at. -/
structure Context where
  localAddress : Address
  activeMode : Mode
  peripherals : Peripherals
  deriving DecidableEq

/-- What a routine works on. -/
structure Memory (σ : Type) where
  store : σ
  cache : HydrophoneUpdate
  deriving DecidableEq

/-- A way to answer. -/
inductive Routine where
  | basicStatus
  | completeStatus
  | changeConfiguration
  | reportConfiguration
  | storeHydrophone
  | fetchHydrophone
  deriving DecidableEq, Repr

namespace Context

/-- An answer goes back to whoever asked; without a request it goes to the shore. -/
def answerRouting (ctx : Context) : Option Packet → Routing
  | some request => request.routing.reply ctx.localAddress
  | none => .toBackend ctx.localAddress

/-- The modules that a code asks for.  Reporting has one for each transport. -/
def report (ctx : Context) (c : Configuration) (cache : HydrophoneUpdate) :
    ModuleCode → Except Fault (List Module)
  | .battery => .ok [.battery ctx.peripherals.battery]
  | .location => .ok [.location ctx.peripherals.location]
  | .clock => .ok [.clock ctx.peripherals.clock]
  | .network => .ok [.network c.network]
  | .modeGraph => .ok [.modeGraph c.graph]
  | .modeList => do
    let modes := c.graph.keys
    let place := (modes.idxOf? ctx.activeMode).getD 0
    return [.modeList (← ModeList.make modes (UInt8.ofNat place))]
  | .reporting => .ok [.reporting c.lora, .reporting c.iridium]
  | .storage => .ok [.storage .unknown]
  | .ambient => .ok [.ambient .unknown]
  | .acoustics => do return [.acoustics (← cache.complete).write]
  | .hydrophone => do return [.hydrophone (← cache.complete)]
  | .hydrophoneStatus => do return [.hydrophoneStatus (← HydrophoneUpdate.need .status cache.status)]
  | .hydrophoneLogging => do return [.hydrophoneLogging (← HydrophoneUpdate.need .logging cache.logging)]
  | .hydrophoneStreaming => do
    return [.hydrophoneStreaming (← HydrophoneUpdate.need .streaming cache.streaming)]
  | .hydrophoneStats => do return [.hydrophoneStats (← HydrophoneUpdate.need .stats cache.stats)]

/-- The modules of a list of codes, in order. -/
def reportAll (ctx : Context) (c : Configuration) (cache : HydrophoneUpdate) :
    List ModuleCode → Except Fault (List Module)
  | [] => .ok []
  | code :: codes => do
    let ms ← ctx.report c cache code
    let rest ← reportAll ctx c cache codes
    return ms ++ rest

end Context

/-- A request for a status report carries nothing. -/
def requireEmpty : Option Packet → Except Fault Unit
  | none => .ok ()
  | some request =>
    match request.payload with
    | .empty => .ok ()
    | other => .error (.payload (.statusRequestBody other.size))

/-- Some questions are only answered to the shore. -/
def requireBackend (request : Packet) : Except Fault Unit :=
  if request.routing.sender.isBackend then .ok ()
  else .error (.forbiddenSender request.routing.sender)

namespace Routine

variable {σ : Type} [ConfigurationStore σ]

open ConfigurationStore (load save)

/-- Battery, position and clock. -/
def answerBasicStatus (ctx : Context) (request : Option Packet) : Except Fault Packet := do
  requireEmpty request
  let p := ctx.peripherals
  Packet.make .basicStatus (ctx.answerRouting request)
    (.basicReport ⟨p.battery, p.location, p.clock⟩)

/-- Full status; the node has no sensor for storage and surroundings. -/
def answerCompleteStatus (ctx : Context) (cache : HydrophoneUpdate)
    (request : Option Packet) : Except Fault Packet := do
  requireEmpty request
  let hydrophone ← cache.complete
  let p := ctx.peripherals
  Packet.make .completeStatus (ctx.answerRouting request)
    (.completeReport ⟨p.battery, .unknown, p.location, .unknown, hydrophone⟩)

/-- The configuration that a list of records makes of the stored one. -/
def updatedConfiguration (store : σ) (records : RecordList) : Except Fault Configuration := do
  let ms ← records.modules
  (← load store).withModules ms

/-- Saves the changed configuration, then repeats the change to whoever sent it.  Nothing is
saved unless every record decodes and the result is valid. -/
def answerChange (ctx : Context) (mem : Memory σ) (request : Packet) :
    Except Fault Packet × Memory σ :=
  match request.payload with
  | .configurationChange records =>
    match updatedConfiguration mem.store records with
    | .error e => (.error e, mem)
    | .ok updated =>
      match save mem.store updated with
      | (.error e, store) => (.error e, { mem with store := store })
      | (.ok (), store) =>
        (Packet.make .setConfiguration (request.routing.reply ctx.localAddress)
          (.configurationChange records), { mem with store := store })
  | _ => (.error (.payloadMismatch request.opcode), mem)

/-- The modules that the shore asks for. -/
def answerQuery (ctx : Context) (mem : Memory σ) (request : Packet) : Except Fault Packet :=
  match request.payload with
  | .configurationQuery codes => do
    requireBackend request
    let ms ← ctx.reportAll (← load mem.store) mem.cache codes
    let records ← RecordList.ofModules ms
    Packet.make .getConfiguration (ctx.answerRouting (some request)) (.configurationAnswer records)
  | _ => .error (.payloadMismatch request.opcode)

/-- Takes aspects into the cache, then repeats them to whoever sent them. -/
def answerStore (ctx : Context) (mem : Memory σ) (request : Packet) :
    Except Fault Packet × Memory σ :=
  match request.payload with
  | .hydrophoneChange update =>
    (Packet.make .setHydrophone (request.routing.reply ctx.localAddress)
      (.hydrophoneChange update), { mem with cache := mem.cache.store update })
  | _ => (.error (.payloadMismatch request.opcode), mem)

/-- The aspects that the shore asks for. -/
def answerFetch (ctx : Context) (cache : HydrophoneUpdate) (request : Packet) :
    Except Fault Packet :=
  match request.payload with
  | .hydrophoneQuery mask => do
    requireBackend request
    let selection ← cache.select mask
    Packet.make .getHydrophone (ctx.answerRouting (some request)) (.hydrophoneAnswer selection)
  | _ => .error (.payloadMismatch request.opcode)

/-- Runs a routine for a request, or for the node itself. -/
def run (r : Routine) (ctx : Context) (mem : Memory σ) (request : Option Packet) :
    Except Fault Packet × Memory σ :=
  match r, request with
  | basicStatus, _ => (answerBasicStatus ctx request, mem)
  | completeStatus, _ => (answerCompleteStatus ctx mem.cache request, mem)
  | _, none => (.error .noRequest, mem)
  | changeConfiguration, some p => answerChange ctx mem p
  | reportConfiguration, some p => (answerQuery ctx mem p, mem)
  | storeHydrophone, some p => answerStore ctx mem p
  | fetchHydrophone, some p => (answerFetch ctx mem.cache p, mem)

end Routine

end AcousticNode
