import AcousticNode.Configuration.Basic
import AcousticNode.Json.Reader
import AcousticNode.Json.Writer

/-!
# Configuration documents

A configuration is kept as a JSON document.  `Document` is what such a document lists, in the
order in which it does; a configuration is made of it when no list names a key twice and the
result is valid.
-/

set_option autoImplicit false

namespace AcousticNode

/-! ## Values in documents -/

/-- The value that a document spells with one of the keywords of an enumeration. -/
def keywordOf? {α : Type} [Enumeration α] (spelling : α → String) (j : Json) : Option α := do
  let s ← j.keyword?
  Enumeration.all.find? fun a => spelling a == s

namespace Address

def ofJson? (j : Json) : Option Address := j.octet?.map Address.mk

def toJson (a : Address) : Json := .natural a.value.toNat

end Address

namespace BatteryStatus

def ofJson? (j : Json) : Option BatteryStatus := keywordOf? keyword j

def toJson (s : BatteryStatus) : Json := .text s.keyword

end BatteryStatus

namespace ReportType

def ofJson? (j : Json) : Option ReportType := keywordOf? name j

def toJson (t : ReportType) : Json := .text t.name

end ReportType

namespace ReportEntry

def ofJson? (j : Json) : Option ReportEntry := do
  match ← j.fields? ["period", "reportType"] with
  | [some period, some report] => return ⟨← period.word?, ← ReportType.ofJson? report⟩
  | _ => none

def toJson (e : ReportEntry) : Json :=
  .record [("period", .natural e.period.toNat), ("reportType", e.report.toJson)]

end ReportEntry

namespace Transition

def ofJson? (j : Json) : Option Transition := do
  match ← j.fields? ["nextMode", "duration"] with
  | [some next, some duration] => return ⟨← next.octet?, ← duration.word?⟩
  | _ => none

def toJson (t : Transition) : Json :=
  .record [("nextMode", .natural t.next.toNat),
    ("duration", .natural t.duration.toNat)]

end Transition

/-! ## Rows of the lists -/

namespace Document

/-- A route. -/
def route? (j : Json) : Option (Address × Address) := do
  match ← j.fields? ["destination", "nextHop"] with
  | [some destination, some hop] => return (← Address.ofJson? destination, ← Address.ofJson? hop)
  | _ => none

def routeJson (e : Address × Address) : Json :=
  .record [("destination", e.1.toJson), ("nextHop", e.2.toJson)]

/-- A mode of the graph. -/
def graphRow? (j : Json) : Option (Mode × Transition) := do
  match ← j.fields? ["currentMode", "nextMode", "duration"] with
  | [some mode, some next, some duration] =>
    return (← mode.octet?, ⟨← next.octet?, ← duration.word?⟩)
  | _ => none

def graphRowJson (e : Mode × Transition) : Json :=
  .record [("currentMode", .natural e.1.toNat),
    ("nextMode", .natural e.2.next.toNat),
    ("duration", .natural e.2.duration.toNat)]

/-- A mode of a schedule. -/
def entry? (j : Json) : Option (Mode × ReportEntry) := do
  match ← j.fields? ["mode", "period", "reportType"] with
  | [some mode, some period, some report] =>
    return (← mode.octet?, ⟨← period.word?, ← ReportType.ofJson? report⟩)
  | _ => none

def entryJson (e : Mode × ReportEntry) : Json :=
  .record [("mode", .natural e.1.toNat), ("period", .natural e.2.period.toNat),
    ("reportType", e.2.report.toJson)]

end Document

/-! ## Documents -/

/-- What a configuration document lists. -/
structure Document where
  localAddress : Address
  routes : List (Address × Address)
  gateway : Address
  graph : List (Mode × Transition)
  lora : List (Mode × ReportEntry)
  iridium : List (Mode × ReportEntry)
  deriving DecidableEq

namespace Document

/-- A field that may be left out. -/
def fieldOr {α : Type} (absent : α) (read : Json → Option α) : Option Json → Option α
  | none => some absent
  | some j => read j

/-- The document of a JSON value.  Only the address of the node itself is required. -/
def ofJson? (j : Json) : Option Document := do
  match ← j.fields? ["localAddress", "routingTable", "defaultGateway", "operationGraphModule",
      "loraModule", "iridiumModule"] with
  | [some localAddress, routes, gateway, graph, lora, iridium] =>
    return {
      localAddress := ← Address.ofJson? localAddress
      routes := ← fieldOr [] (Json.listOf? route?) routes
      gateway := ← fieldOr .backend Address.ofJson? gateway
      graph := ← fieldOr [] (Json.listOf? graphRow?) graph
      lora := ← fieldOr [] (Json.listOf? entry?) lora
      iridium := ← fieldOr [] (Json.listOf? entry?) iridium }
  | _ => none

def toJson (d : Document) : Json :=
  .record [("localAddress", d.localAddress.toJson),
    ("routingTable", .array (d.routes.map routeJson)),
    ("defaultGateway", d.gateway.toJson),
    ("operationGraphModule", .array (d.graph.map graphRowJson)),
    ("loraModule", .array (d.lora.map entryJson)),
    ("iridiumModule", .array (d.iridium.map entryJson))]

/-- The configuration that a document describes.  Lists are checked for keys that occur twice
in this order: the graph, the routes, the LoRa schedule, the Iridium schedule; then the whole
is validated. -/
def toConfiguration (d : Document) : Except ConfigurationFlaw Configuration := do
  let graph ← Table.ofDistinct .repeatedMode d.graph
  let routes ← Table.ofDistinct .repeatedRoute d.routes
  let lora ← Table.ofDistinct (.repeatedEntry .lora) d.lora
  let iridium ← Table.ofDistinct (.repeatedEntry .iridium) d.iridium
  let c : Configuration :=
    ⟨d.localAddress, routes, d.gateway, graph, ⟨.lora, lora⟩, ⟨.iridium, iridium⟩⟩
  c.validate
  return c

end Document

namespace Configuration

/-- The document of a configuration; every list ascends by key. -/
def toDocument (c : Configuration) : Document where
  localAddress := c.localAddress
  routes := c.routes.entries
  gateway := c.gateway
  graph := c.graph.entries
  lora := c.lora.entries.entries
  iridium := c.iridium.entries.entries

/-- A configuration as a text. -/
def toText (c : Configuration) : String := c.toDocument.toJson.pretty

/-- The configuration of a text.  The flaws of what the text describes are found before anything
that follows it is looked at. -/
def ofText (s : String) : Except Fault Configuration :=
  match Json.readFront s.toList with
  | none => .error (.document none)
  | some (j, rest) =>
    match Document.ofJson? j with
    | none => .error (.document none)
    | some d => do
      let c ← d.toConfiguration.mapError fun flaw => .document (some flaw)
      if Json.isEnd rest then .ok c else .error (.document none)

end Configuration

end AcousticNode
