import AcousticNode.Configuration.Document
import AcousticNode.Proofs.Configuration.Validity
import AcousticNode.Proofs.Json.RoundTrip
import AcousticNode.Proofs.Outcome
import AcousticNode.Proofs.Table

/-!
# Configurations survive their documents

A document is read back from its text, and a configuration from its document, since its tables
name no key twice.  A document does not say which transport a schedule is for, so a schedule
comes back in its place whatever it was for.

* `ofJson?_toJson` : documents;
* `ofText_toText` : what the text of any configuration is read as;
* `ofText_toText_of_valid` : the configuration itself, when it is valid;
* `reread` : a configuration is read back exactly if it is valid, and what happens to others;
* `valid_of_ofText` : no text is read as a configuration that is not.
-/

set_option autoImplicit false

namespace AcousticNode

/-! ## Values -/

namespace Json

theorem octet?_natural (b : UInt8) : (natural b.toNat).octet? = some b := by
  simp [octet?, below?, b.toNat_lt]

theorem word?_natural (w : UInt16) : (natural w.toNat).word? = some w := by
  simp [word?, below?, w.toNat_lt]

theorem listOf?_map {α : Type} {read : Json → Option α} {write : α → Json}
    (h : ∀ a, read (write a) = some a) (as : List α) :
    listOf? read (array (as.map write)) = some as := by
  rw [listOf?]
  induction as with
  | nil => rfl
  | cons a as ih => simp [h, ih]

theorem Faithful.record {ms : List (String × Json)} (h : ∀ m ∈ ms, Faithful m.2) :
    Faithful (record ms) := by
  refine .object ?_ ?_
  · intro m hm
    obtain ⟨_, _, rfl⟩ := List.mem_map.mp hm
    rfl
  · intro m hm
    obtain ⟨m', hm', rfl⟩ := List.mem_map.mp hm
    exact h m' hm'

theorem Faithful.rows {α : Type} {write : α → Json} (h : ∀ a, Faithful (write a)) (as : List α) :
    Faithful (Json.array (as.map write)) := by
  refine .array fun j hj => ?_
  obtain ⟨a, _, rfl⟩ := List.mem_map.mp hj
  exact h a

end Json

open Json (Faithful)

theorem Address.ofJson?_toJson (a : Address) : Address.ofJson? a.toJson = some a := by
  rw [Address.ofJson?, Address.toJson, Json.octet?_natural]
  rfl

theorem ReportType.ofJson?_toJson (t : ReportType) : ReportType.ofJson? t.toJson = some t := by
  cases t <;> decide

/-! ## Rows -/

namespace Document

theorem route?_routeJson (e : Address × Address) : route? (routeJson e) = some e := by
  have hfields : (routeJson e).fields? ["destination", "nextHop"] =
      some [some e.1.toJson, some e.2.toJson] := by
    simp [routeJson, Json.record, Json.fields?, Json.occurrences, Json.find?]
  simp only [route?, hfields, Address.ofJson?_toJson, bind, Option.bind]
  rfl

theorem graphRow?_graphRowJson (e : Mode × Transition) : graphRow? (graphRowJson e) = some e := by
  have hfields : (graphRowJson e).fields? ["currentMode", "nextMode", "duration"] =
      some [some (.natural e.1.toNat), some (.natural e.2.next.toNat),
        some (.natural e.2.duration.toNat)] := by
    simp [graphRowJson, Json.record, Json.fields?, Json.occurrences, Json.find?]
  simp only [graphRow?, hfields, Json.octet?_natural, Json.word?_natural, bind, Option.bind]
  rfl

theorem entry?_entryJson (e : Mode × ReportEntry) : entry? (entryJson e) = some e := by
  have hfields : (entryJson e).fields? ["mode", "period", "reportType"] =
      some [some (.natural e.1.toNat), some (.natural e.2.period.toNat),
        some e.2.report.toJson] := by
    simp [entryJson, Json.record, Json.fields?, Json.occurrences, Json.find?]
  unfold entry?
  simp only [hfields, Json.octet?_natural, Json.word?_natural, ReportType.ofJson?_toJson,
    bind, Option.bind]
  rfl

theorem ofJson?_toJson (d : Document) : ofJson? d.toJson = some d := by
  have hfields : d.toJson.fields? ["localAddress", "routingTable", "defaultGateway",
      "operationGraphModule", "loraModule", "iridiumModule"] =
      some [some d.localAddress.toJson, some (.array (d.routes.map routeJson)),
        some d.gateway.toJson, some (.array (d.graph.map graphRowJson)),
        some (.array (d.lora.map entryJson)), some (.array (d.iridium.map entryJson))] := by
    simp [toJson, Json.record, Json.fields?, Json.occurrences, Json.find?]
  simp only [ofJson?, hfields, fieldOr, Address.ofJson?_toJson,
    Json.listOf?_map route?_routeJson, Json.listOf?_map graphRow?_graphRowJson,
    Json.listOf?_map entry?_entryJson, bind, Option.bind]
  rfl

/-! ## The text of a document -/

theorem faithful_address (a : Address) : Faithful a.toJson := .natural _

theorem faithful_routeJson (e : Address × Address) : Faithful (routeJson e) := by
  refine .record fun m hm => ?_
  simp only [List.mem_cons, List.not_mem_nil, or_false] at hm
  rcases hm with rfl | rfl <;> exact faithful_address _

theorem faithful_graphRowJson (e : Mode × Transition) : Faithful (graphRowJson e) := by
  refine .record fun m hm => ?_
  simp only [List.mem_cons, List.not_mem_nil, or_false] at hm
  rcases hm with rfl | rfl | rfl <;> exact .natural _

theorem faithful_entryJson (e : Mode × ReportEntry) : Faithful (entryJson e) := by
  refine .record fun m hm => ?_
  simp only [List.mem_cons, List.not_mem_nil, or_false] at hm
  rcases hm with rfl | rfl | rfl
  · exact .natural _
  · exact .natural _
  · exact .text _

theorem faithful_toJson (d : Document) : Faithful d.toJson := by
  refine .record fun m hm => ?_
  simp only [List.mem_cons, List.not_mem_nil, or_false] at hm
  rcases hm with rfl | rfl | rfl | rfl | rfl | rfl
  · exact faithful_address _
  · exact .rows faithful_routeJson _
  · exact faithful_address _
  · exact .rows faithful_graphRowJson _
  · exact .rows faithful_entryJson _
  · exact .rows faithful_entryJson _

end Document

/-! ## Configurations -/

namespace Configuration

open Outcome

/-- A configuration whose schedules are for the transports that their places say. -/
def placed (c : Configuration) : Configuration :=
  { c with lora := ⟨.lora, c.lora.entries⟩, iridium := ⟨.iridium, c.iridium.entries⟩ }

theorem toConfiguration_toDocument (c : Configuration) :
    c.toDocument.toConfiguration = c.placed.validate.map fun _ => c.placed := by
  simp only [Document.toConfiguration, toDocument, Table.ofDistinct_entries, bind, Except.bind]
  rfl

theorem ofText_toText (c : Configuration) :
    ofText c.toText = (c.placed.validate.map fun _ => c.placed).mapError
      fun flaw => .document (some flaw) := by
  have hread := Json.readFront_pretty c.toDocument.faithful_toJson
  rw [ofText, toText, hread]
  simp only [Document.ofJson?_toJson, toConfiguration_toDocument]
  cases c.placed.validate <;> rfl

theorem placed_of_validate {c : Configuration} (h : c.validate = .ok ()) : c.placed = c := by
  have hvalid := (validate_eq_ok_iff c).mp h
  rw [placed, ← hvalid.lora_eq, ← hvalid.iridium_eq]

theorem ofText_toText_of_valid {c : Configuration} (h : c.validate = .ok ()) :
    ofText c.toText = .ok c := by
  rw [ofText_toText, placed_of_validate h, h]
  rfl

/-! ## Configurations that are not valid -/

theorem placed_eq_iff {c : Configuration} : c.placed = c ↔ c.Placed := by
  constructor
  · intro h
    rw [← h]
    exact ⟨rfl, rfl⟩
  · rintro ⟨hlora, hiridium⟩
    rw [placed, ← hlora, ← hiridium]

/-- With the schedules in their places, only the graph is left to be checked. -/
theorem Placed.validate_eq {c : Configuration} (h : c.Placed) :
    c.validate = ModeGraph.validate c.graph := by
  unfold validate
  cases ModeGraph.validate c.graph with
  | error flaw => rfl
  | ok u => simp [bind, Except.bind, h.lora_eq, h.iridium_eq]

theorem ofText_toText_of_graph {c : Configuration} (h : ModeGraph.validate c.graph = .ok ()) :
    ofText c.toText = .ok c.placed := by
  have hplaced : c.placed.validate = .ok () := Placed.validate_eq ⟨rfl, rfl⟩ |>.trans h
  rw [ofText_toText, hplaced]
  rfl

theorem ofText_toText_of_flaw {c : Configuration} {flaw : ConfigurationFlaw}
    (h : ModeGraph.validate c.graph = .error flaw) :
    ofText c.toText = .error (.document (some flaw)) := by
  have hplaced : c.placed.validate = .error flaw := Placed.validate_eq ⟨rfl, rfl⟩ |>.trans h
  rw [ofText_toText, hplaced]
  rfl

/-- What becomes of a configuration that is written to a text and read from it again.  The graph
decides whether it is read at all, and the schedules whether it comes back as it was; so a
configuration that is not valid falls under the first of the last three cases that it meets. -/
structure Reread (c : Configuration) : Prop where
  same_iff : ofText c.toText = .ok c ↔ c.validate = .ok ()
  of_empty : c.graph.entries = [] → ofText c.toText = .error (.document (some .emptyGraph))
  of_undefined : ∀ mode t, c.graph.get? mode = some t → c.graph.get? t.next = none →
    ∃ mode' next, ofText c.toText = .error (.document (some (.undefinedMode mode' next)))
  of_foreign : c.graph.entries ≠ [] →
    (∀ mode t, c.graph.get? mode = some t → ∃ t', c.graph.get? t.next = some t') →
    c.lora.transport ≠ .lora ∨ c.iridium.transport ≠ .iridium →
    ∃ c', ofText c.toText = .ok c' ∧ c' ≠ c ∧
      c' = { c with lora := ⟨.lora, c.lora.entries⟩, iridium := ⟨.iridium, c.iridium.entries⟩ }

/-- **A configuration is read back exactly if it is valid.**  One whose graph is empty or leads to
an unknown mode is not read at all, whatever its schedules.  Any other one with a schedule for
another transport is read, and comes back with the schedule for the transport of its place. -/
theorem reread (c : Configuration) : c.Reread where
  same_iff := by
    constructor
    · intro h
      cases hgraph : ModeGraph.validate c.graph with
      | error flaw =>
        rw [ofText_toText_of_flaw hgraph] at h
        cases h
      | ok u =>
        rw [ofText_toText_of_graph hgraph] at h
        have hplaced := placed_eq_iff.mp (Except.ok.inj h)
        rw [hplaced.validate_eq, hgraph]
    · exact ofText_toText_of_valid
  of_empty hempty := by
    apply ofText_toText_of_flaw
    simp [ModeGraph.validate, Table.isEmpty, hempty]
  of_undefined mode t hmode hnext := by
    have hne : c.graph.isEmpty = false := by
      have hmem := (Table.get?_eq_some_iff c.graph).mp hmode
      simpa [Table.isEmpty] using List.ne_nil_of_mem hmem
    cases hundefined : ModeGraph.undefinedMode? c.graph with
    | none =>
      obtain ⟨t', ht'⟩ := (ModeGraph.undefinedMode?_eq_none_iff c.graph).mp hundefined mode t hmode
      rw [hnext] at ht'
      cases ht'
    | some e =>
      refine ⟨e.1, e.2, ofText_toText_of_flaw ?_⟩
      simp [ModeGraph.validate, hne, hundefined]
  of_foreign hinhabited hclosed hforeign := by
    have hgraph := (ModeGraph.validate_eq_ok_iff c.graph).mpr ⟨hinhabited, hclosed⟩
    refine ⟨c.placed, ofText_toText_of_graph hgraph, fun hsame => ?_, rfl⟩
    obtain ⟨hlora, hiridium⟩ := placed_eq_iff.mp hsame
    rcases hforeign with h | h
    · exact h hlora
    · exact h hiridium

/-- Schedules in each other's places come back in their own, and a graph that leads out of itself
is found out whether or not a schedule is misplaced. -/
theorem reread_misplaced :
    let swapped := { Configuration.default with
      lora := ⟨.iridium, Table.empty⟩, iridium := ⟨.lora, Table.empty.insert 3 ⟨60, .complete⟩⟩ }
    let dangling := { swapped with graph := Table.empty.insert 0 ⟨7, 1⟩ }
    ofText swapped.toText = .ok { Configuration.default with
      lora := ⟨.lora, Table.empty⟩, iridium := ⟨.iridium, Table.empty.insert 3 ⟨60, .complete⟩⟩ } ∧
    ofText swapped.toText ≠ .ok swapped ∧
    ∃ mode next, ofText dangling.toText = .error (.document (some (.undefinedMode mode next))) := by
  intro swapped dangling
  obtain ⟨hinhabited, hclosed⟩ := (ModeGraph.validate_eq_ok_iff swapped.graph).mp rfl
  obtain ⟨c', hread, hne, rfl⟩ :=
    (reread swapped).of_foreign hinhabited hclosed (.inl (by decide))
  refine ⟨hread, fun h => ?_, (reread dangling).of_undefined 0 ⟨7, 1⟩ rfl rfl⟩
  rw [hread] at h
  exact hne (Except.ok.inj h)

/-! ## What is read -/

/-- Whatever a document describes has passed the check. -/
theorem valid_of_toConfiguration {d : Document} {c : Configuration}
    (h : d.toConfiguration = .ok c) : c.Valid := by
  obtain ⟨_, _, h⟩ := bind_eq_ok.mp h
  obtain ⟨_, _, h⟩ := bind_eq_ok.mp h
  obtain ⟨_, _, h⟩ := bind_eq_ok.mp h
  obtain ⟨_, _, h⟩ := bind_eq_ok.mp h
  obtain ⟨_, hvalidate, h⟩ := bind_eq_ok.mp h
  cases h
  exact (validate_eq_ok_iff _).mp hvalidate

theorem valid_of_ofText {s : String} {c : Configuration} (h : ofText s = .ok c) : c.Valid := by
  unfold ofText at h
  split at h
  · cases h
  · split at h
    · cases h
    · obtain ⟨c', hc', h⟩ := bind_eq_ok.mp h
      split at h
      · cases h
        exact valid_of_toConfiguration (mapError_eq_ok.mp hc')
      · cases h

end Configuration

end AcousticNode
