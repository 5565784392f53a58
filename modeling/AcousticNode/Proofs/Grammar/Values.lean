import AcousticNode.Proofs.Grammar.Image
import AcousticNode.Proofs.Module.Encoding
import AcousticNode.Proofs.Module.Listing
import Mathlib.Data.Set.List

/-!
# The grammar of values

The octets that a record may carry under each module code, as languages over octets.  The values
of networks, graphs and reporting schedules are entries with distinct keys, in any order; a list of
modes points at one of its modes; passive acoustics may be anything; and all other values have a
fixed length, with a few octets restricted.

* `values` : the values of a module code;
* `exists_decode_iff` : a module is decoded from these values and from no others;
* `decode_listed` : what is decoded from a record, and what the module is written as again.
-/

set_option autoImplicit false

namespace AcousticNode

open Outcome
open scoped Computability

namespace Grammar

/-- Entries in any order, each a key that no other entry has and octets of a language. -/
def keyed (rest : Language UInt8) : Language UInt8 :=
  {v | ∃ es : List (UInt8 × Bytes), (es.map (·.1)).Nodup ∧ (∀ e ∈ es, e.2 ∈ rest) ∧
    es.flatMap entryOctets = v}

/-- Octets and behind them the place of one of them. -/
def pointed : Language UInt8 :=
  {v | ∃ bs : Bytes, ∃ place : UInt8, place.toNat < bs.length ∧ bs ++ [place] = v}

/-- The values of a module code. -/
def values : ModuleCode → Language UInt8
  | .battery => octets 1 * oneOf [0, 1, 2, 3, 4]
  | .location => octets 8
  | .network => octets 1 * (keyed (octets 1) * octets 1)
  | .modeList => pointed
  | .modeGraph => keyed (octets 3)
  | .reporting => oneOf [1, 2] * keyed (octets 2 * oneOf [0x43, 0x42, 0x53])
  | .clock => octets 8
  | .storage => octets 8
  | .ambient => octets 2
  | .acoustics => ⊤
  | .hydrophone => aspect .status * (aspect .logging * (aspect .streaming * aspect .stats))
  | .hydrophoneStatus => octets 34
  | .hydrophoneLogging => octets 19
  | .hydrophoneStreaming => flag * (flag * (octets 3 * (flag * (flag * octets 11))))
  | .hydrophoneStats => octets 11

/-! ## Values with entries -/

section Keyed

variable {κ β : Type} [Rank κ] {octet : κ → UInt8} {write : β → Bytes}

/-- Entries with distinct keys are the entries of a table. -/
theorem mem_keyed_iff (hoctet : Function.Bijective octet) {v : Bytes} :
    v ∈ keyed (image write) ↔ ∃ (t : Table κ β) (es : List (κ × β)), es.Perm t.entries ∧
      (es.map fun e => (octet e.1, write e.2)).flatMap entryOctets = v := by
  have hkeys : ∀ es : List (κ × β), ((es.map fun e => (octet e.1, write e.2)).map (·.1)).Nodup ↔
      ∃ t : Table κ β, es.Perm t.entries := by
    intro es
    rw [Table.exists_perm_iff, ← List.nodup_map_iff hoctet.injective, List.map_map, List.map_map]
    rfl
  constructor
  · rintro ⟨ps, hnodup, hrest, rfl⟩
    have hrange : ps ∈ Set.range (List.map fun e : κ × β => (octet e.1, write e.2)) := by
      rw [Set.range_list_map]
      rintro ⟨b, bs⟩ he
      obtain ⟨k, rfl⟩ := hoctet.surjective b
      obtain ⟨v, rfl⟩ := hrest _ he
      exact ⟨(k, v), rfl⟩
    obtain ⟨es, rfl⟩ := hrange
    obtain ⟨t, ht⟩ := (hkeys es).mp hnodup
    exact ⟨t, es, ht, rfl⟩
  · rintro ⟨t, es, hperm, rfl⟩
    refine ⟨_, (hkeys es).mpr ⟨t, hperm⟩, ?_, rfl⟩
    intro e he
    obtain ⟨e', _, rfl⟩ := List.mem_map.mp he
    exact ⟨e'.2, rfl⟩

end Keyed

theorem image_address : image (fun a : Address => [a.value]) = octets 1 := by
  ext bs
  rw [mem_octets, List.length_eq_one_iff, mem_image]
  constructor
  · rintro ⟨a, rfl⟩
    exact ⟨a.value, rfl⟩
  · rintro ⟨b, rfl⟩
    exact ⟨⟨b⟩, rfl⟩

theorem image_wordOctets : image wordOctets = octets 2 := by
  ext bs
  rw [mem_octets, List.length_eq_two, mem_image]
  constructor
  · rintro ⟨w, rfl⟩
    exact ⟨_, _, rfl⟩
  · rintro ⟨high, low, rfl⟩
    exact ⟨wordOf high low, wordOctets_wordOf high low⟩

theorem image_transition :
    image (fun t : Transition => t.next :: wordOctets t.duration) = octets 3 := by
  rw [← octets_mul 1 2, ← image_octet, ← image_wordOctets]
  ext bs
  rw [Language.mem_mul]
  constructor
  · rintro ⟨t, rfl⟩
    exact ⟨_, ⟨t.next, rfl⟩, _, ⟨t.duration, rfl⟩, rfl⟩
  · rintro ⟨_, ⟨next, rfl⟩, _, ⟨duration, rfl⟩, rfl⟩
    exact ⟨⟨next, duration⟩, rfl⟩

theorem image_enumeration (α : Type) [Enumeration α] :
    image (fun a : α => [Enumeration.byte a]) =
      oneOf ((Enumeration.all : List α).map Enumeration.byte) :=
  image_enumerated α .errorCode

theorem image_reportEntry :
    image (fun e : ReportEntry => wordOctets e.period ++ [Enumeration.byte e.report]) =
      octets 2 * oneOf [0x43, 0x42, 0x53] := by
  have hreport : oneOf [0x43, 0x42, 0x53] = image fun r : ReportType => [Enumeration.byte r] :=
    (image_enumeration ReportType).symm
  rw [← image_wordOctets, hreport]
  ext bs
  rw [Language.mem_mul]
  constructor
  · rintro ⟨e, rfl⟩
    exact ⟨_, ⟨e.period, rfl⟩, _, ⟨e.report, rfl⟩, rfl⟩
  · rintro ⟨_, ⟨period, rfl⟩, _, ⟨report, rfl⟩, rfl⟩
    exact ⟨⟨period, report⟩, rfl⟩

end Grammar

open Grammar

theorem Network.exists_read_iff {v : Bytes} : (∃ n, read v = .ok n) ↔ v ∈ values .network := by
  have hvalue : Function.Bijective Address.value :=
    ⟨fun _ _ h => congrArg Address.mk h, fun b => ⟨⟨b⟩, rfl⟩⟩
  simp only [read_eq_ok_iff, writeRoutes_eq, values, ← image_address, Language.mem_mul,
    mem_keyed_iff hvalue]
  constructor
  · rintro ⟨n, es, hperm, rfl⟩
    exact ⟨_, ⟨n.localAddress, rfl⟩, _, ⟨_, ⟨n.routes, es, hperm, rfl⟩, _, ⟨n.gateway, rfl⟩, rfl⟩,
      rfl⟩
  · rintro ⟨_, ⟨localAddress, rfl⟩, _, ⟨_, ⟨routes, es, hperm, rfl⟩, _, ⟨gateway, rfl⟩, rfl⟩, rfl⟩
    exact ⟨⟨localAddress, routes, gateway⟩, es, hperm, rfl⟩

theorem ModeGraph.exists_read_iff {v : Bytes} : (∃ g, read v = .ok g) ↔ v ∈ values .modeGraph := by
  simp only [read_eq_ok_iff, writeEntries_eq_listed, values, ← image_transition,
    mem_keyed_iff Function.bijective_id]
  rfl

theorem Reporting.exists_read_iff {v : Bytes} : (∃ r, read v = .ok r) ↔ v ∈ values .reporting := by
  have htransport : oneOf [1, 2] = image (fun t : Transport => [Enumeration.byte t]) :=
    (image_enumeration Transport).symm
  simp only [read_eq_ok_iff, writeEntries_eq_listed, values, htransport, ← image_reportEntry,
    Language.mem_mul, mem_keyed_iff (κ := Mode) Function.bijective_id]
  constructor
  · rintro ⟨r, es, hperm, rfl⟩
    exact ⟨_, ⟨r.transport, rfl⟩, _, ⟨r.entries, es, hperm, rfl⟩, rfl⟩
  · rintro ⟨_, ⟨transport, rfl⟩, _, ⟨entries, es, hperm, rfl⟩, rfl⟩
    exact ⟨⟨transport, entries⟩, es, hperm, rfl⟩

theorem ModeList.exists_read_iff {v : Bytes} : (∃ l, read v = .ok l) ↔ v ∈ values .modeList := by
  constructor
  · rintro ⟨l, hl⟩
    exact ⟨l.modes, l.activeIndex, l.active_lt, ModeList.write_of_read hl⟩
  · rintro ⟨bs, place, hlt, rfl⟩
    exact ⟨⟨bs, place, hlt⟩, ModeList.read_write ⟨bs, place, hlt⟩⟩

/-! ## Every code -/

theorem Layout.exists_readValue_iff {α : Type} (l : Layout α) {code : ModuleCode} {v : Bytes} :
    (∃ a, l.readValue code v = .ok a) ↔ v ∈ image l.write := by
  constructor
  · rintro ⟨a, ha⟩
    exact ⟨a, l.write_of_readValue ha⟩
  · rintro ⟨a, rfl⟩
    exact ⟨a, l.readValue_write code a⟩

namespace Module

theorem exists_decode_hydrophone_iff {v : Bytes} :
    (∃ m, decode .hydrophone v = .ok m) ↔ v ∈ image Hydrophone.write := by
  constructor
  · rintro ⟨m, hm⟩
    have hcode := code_of_decode hm
    cases m <;> cases hcode
    exact ⟨_, value_of_decode hm rfl⟩
  · rintro ⟨h, rfl⟩
    exact ⟨hydrophone h, decode_value (hydrophone h)⟩

/-- What is decoded under a code. -/
theorem exists_decode_iff {code : ModuleCode} {v : Bytes} :
    (∃ m, decode code v = .ok m) ↔ v ∈ values code := by
  cases code
  case hydrophone => rw [exists_decode_hydrophone_iff, image_hydrophone, values]
  all_goals rw [decode]
  case acoustics => exact iff_of_true ⟨_, rfl⟩ trivial
  all_goals rw [exists_map_eq_ok]
  case network => exact Network.exists_read_iff
  case modeList => exact ModeList.exists_read_iff
  case modeGraph => exact ModeGraph.exists_read_iff
  case reporting => exact Reporting.exists_read_iff
  all_goals rw [Layout.exists_readValue_iff, values]
  case battery => rw [image_battery]
  case location => rw [image_location]
  case clock => rw [image_clock]
  case storage => rw [image_storage]
  case ambient => rw [image_ambient]
  case hydrophoneStatus => rw [image_hydrophoneStatus]
  case hydrophoneLogging => rw [image_hydrophoneLogging]
  case hydrophoneStreaming => rw [image_hydrophoneStreaming]
  case hydrophoneStats => rw [image_hydrophoneStats]

/-- A module is written as a record of the same length as the one that it was decoded from, with
the same entries and their keys ascending, and is decoded from it again. -/
structure Rewritten (m : Module) (r r' : Record) : Prop where
  toRecord_eq : m.toRecord = .ok r'
  code_eq : r'.code = r.code
  length_eq : r'.value.length = r.value.length
  listed : m.Lists r.value
  written : m.listing.spell = r'.value
  ascending : m.listing.entries.Pairwise fun a b => a.1 < b.1
  /-- Without entries there is nothing to put in order. -/
  value_eq : r.code.isRigid → r'.value = r.value
  decode_eq : decode r'.code r'.value = .ok m

/-- **Values are read from their listings.**  Under every code the values that are decoded are those
of the grammar: entries with distinct keys in any order, where there are entries, and the permitted
octets elsewhere.  A value is decoded to the module that it lists, and the module is written
with its entries in ascending order.  Entries of one length can be cut out of every value that is a
multiple of it long, and of no other. -/
theorem decode_listed (r : Record) :
    ((∃ m, decode r.code r.value = .ok m) ↔ r.value ∈ values r.code) ∧
    (∀ m, (decode r.code r.value = .ok m ↔ m.code = r.code ∧ m.Lists r.value) ∧
      (decode r.code r.value = .ok m → ∃ r', m.Rewritten r r')) ∧
    ∀ (n : Nat) (v : Bytes), (∃ es : List (UInt8 × Bytes), (∀ e ∈ es, e.2 ∈ octets n) ∧
      es.flatMap entryOctets = v) ↔ n + 1 ∣ v.length := by
  refine ⟨exists_decode_iff, fun m => ⟨decode_eq_ok_iff, fun h => ?_⟩,
    fun n v => exists_entries_iff⟩
  obtain ⟨hcode, hlists⟩ := decode_eq_ok_iff.mp h
  have hlength := length_of_lists hlists
  have hfits : m.value.length ≤ Limits.maxRecordValue := hlength ▸ r.fits
  exact ⟨m.record hfits, {
    toRecord_eq := toRecord_of_fits hfits
    code_eq := hcode
    length_eq := hlength.symm
    listed := hlists
    written := m.spell_listing
    ascending := m.sorted_listing
    value_eq := value_of_decode h
    decode_eq := m.decode_value }⟩

/-- A graph whose transitions are listed from the second mode on is written from the first on. -/
theorem decode_listed_graph :
    let r : Record := ⟨.modeGraph, [2, 1, 0, 5, 1, 2, 0, 0], by decide⟩
    ∃ m r', decode r.code r.value = .ok m ∧ m.Rewritten r r' ∧
      r'.value = [1, 2, 0, 0, 2, 1, 0, 5] := by
  intro r
  let m : Module := modeGraph ((Table.empty.insert 1 ⟨2, 0⟩).insert 2 ⟨1, 5⟩)
  have hlists : m.Lists r.value :=
    ⟨⟨[], [(2, [1, 0, 5]), (1, [2, 0, 0])], []⟩, ⟨rfl, .swap _ _ _, rfl⟩, rfl⟩
  have hdecode := ((decode_listed r).2.1 m).1.mpr ⟨rfl, hlists⟩
  obtain ⟨r', hr'⟩ := ((decode_listed r).2.1 m).2 hdecode
  exact ⟨m, r', hdecode, hr', hr'.written.symm⟩

end Module

end AcousticNode
