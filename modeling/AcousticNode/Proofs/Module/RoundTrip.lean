import AcousticNode.Module.Basic
import AcousticNode.Proofs.Table

/-!
# Modules survive their records

Every module is decoded from its own value, and a list of modules from their records back to
back.  A value that holds a table is read from a list of its entries in any order; it is written
with the entries ascending.

* `ModeGraph.read_eq_ok_iff`, `Reporting.read_eq_ok_iff`, `Network.read_eq_ok_iff` : the values
  that a table is read from;
* `decode_value` : decoding the value of a module under its code gives the module;
* `decodeAll_frame_append` : the first record of a byte string yields its module;
* `decodeAll_records` : so do all of them.
-/

set_option autoImplicit false

namespace AcousticNode

open Outcome

/-! ## Words and quads -/

theorem wordOf_octets (w : UInt16) :
    wordOf (UInt8.ofNat (w.toNat / 256)) (UInt8.ofNat w.toNat) = w := by
  have hw : w.toNat < 65536 := w.toNat_lt
  apply UInt16.toNat_inj.mp
  simp only [wordOf, UInt16.toNat_ofNat', UInt8.toNat_ofNat']
  omega

theorem wordOctets_wordOf (high low : UInt8) : wordOctets (wordOf high low) = [high, low] := by
  have hhigh : high.toNat < 256 := high.toNat_lt
  have hlow : low.toNat < 256 := low.toNat_lt
  have hword : (wordOf high low).toNat = 256 * high.toNat + low.toNat := by
    rw [wordOf, UInt16.toNat_ofNat']
    omega
  rw [wordOctets, hword, show (256 * high.toNat + low.toNat) / 256 = high.toNat by omega,
    UInt8.ofNat_toNat]
  congr 2
  apply UInt8.toNat_inj.mp
  rw [UInt8.toNat_ofNat']
  omega

/-- The octets of a quad. -/
def quadOctets : UInt8 × UInt8 × UInt8 × UInt8 → Bytes
  | (a, b, c, d) => [a, b, c, d]

theorem quads_flatMap (qs : List (UInt8 × UInt8 × UInt8 × UInt8)) :
    quads (qs.flatMap quadOctets) = some qs := by
  induction qs with
  | nil => rfl
  | cons q qs ih =>
    simp only [List.flatMap_cons, quadOctets, List.cons_append, List.nil_append, quads, ih,
      Option.map_some]

theorem flatMap_of_quads {value : Bytes} {qs : List (UInt8 × UInt8 × UInt8 × UInt8)}
    (h : quads value = some qs) : qs.flatMap quadOctets = value := by
  induction value using quads.induct generalizing qs with
  | case1 =>
    cases h
    rfl
  | case2 a b c d rest ih =>
    obtain ⟨qs', hqs', rfl⟩ := Option.map_eq_some_iff.mp h
    rw [List.flatMap_cons, ih hqs']
    rfl
  | case3 value hnil hcons => simp_all [quads]

theorem quads_eq_some_iff {value : Bytes} {qs : List (UInt8 × UInt8 × UInt8 × UInt8)} :
    quads value = some qs ↔ qs.flatMap quadOctets = value := by
  constructor
  · exact flatMap_of_quads
  · rintro rfl
    exact quads_flatMap qs

/-- The four octets of a transition. -/
def ModeGraph.quad (e : Mode × Transition) : UInt8 × UInt8 × UInt8 × UInt8 :=
  (e.1, e.2.next, UInt8.ofNat (e.2.duration.toNat / 256), UInt8.ofNat e.2.duration.toNat)

/-- The four octets of a schedule's entry. -/
def Reporting.quad (e : Mode × ReportEntry) : UInt8 × UInt8 × UInt8 × UInt8 :=
  (e.1, UInt8.ofNat (e.2.period.toNat / 256), UInt8.ofNat e.2.period.toNat,
    Enumeration.byte e.2.report)

theorem ModeGraph.writeEntries_eq (es : List (Mode × Transition)) :
    writeEntries es = (es.map quad).flatMap quadOctets := by
  induction es with
  | nil => rfl
  | cons e es ih =>
    rw [writeEntries, ih]
    rfl

theorem Reporting.writeEntries_eq (es : List (Mode × ReportEntry)) :
    writeEntries es = (es.map quad).flatMap quadOctets := by
  induction es with
  | nil => rfl
  | cons e es ih =>
    rw [writeEntries, ih]
    rfl

/-! ## Values that hold lists -/

theorem ModeGraph.readEntry_eq_ok_iff (q : UInt8 × UInt8 × UInt8 × UInt8)
    (e : Mode × Transition) : readEntry q = .ok e ↔ quad e = q := by
  obtain ⟨mode, next, high, low⟩ := q
  constructor
  · intro h
    cases h
    have hoctets := List.cons.inj (wordOctets_wordOf high low)
    simp only [quad, hoctets.1, (List.cons.inj hoctets.2).1]
  · intro h
    cases h
    simp only [readEntry, wordOf_octets]

theorem Reporting.readEntry_eq_ok_iff (q : UInt8 × UInt8 × UInt8 × UInt8)
    (e : Mode × ReportEntry) : readEntry q = .ok e ↔ quad e = q := by
  obtain ⟨mode, high, low, octet⟩ := q
  simp only [readEntry, ReportType.ofByte]
  constructor
  · intro h
    obtain ⟨report, hreport, h⟩ := bind_eq_ok.mp h
    split at hreport
    · rename_i report' hoctet
      cases hreport
      cases h
      have hoctets := List.cons.inj (wordOctets_wordOf high low)
      simp only [quad, hoctets.1, (List.cons.inj hoctets.2).1,
        Enumeration.byte_of_ofByte? hoctet]
    · cases hreport
  · intro h
    cases h
    simp only [Enumeration.ofByte?_byte, wordOf_octets]
    rfl

/-- The transitions of a graph may be listed in any order. -/
theorem ModeGraph.read_eq_ok_iff {value : Bytes} {g : ModeGraph} :
    read value = .ok g ↔ ∃ es, es.Perm g.entries ∧ writeEntries es = value := by
  simp only [writeEntries_eq, ← quads_eq_some_iff]
  unfold read
  cases quads value with
  | none => simp
  | some qs =>
    simp only [Option.some.injEq, eq_comm (a := qs)]
    exact Table.collect_eq_ok_iff_of_write readEntry_eq_ok_iff

/-- So may the entries of a schedule. -/
theorem Reporting.read_eq_ok_iff {value : Bytes} {r : Reporting} :
    read value = .ok r ↔ ∃ es, es.Perm r.entries.entries ∧
      Enumeration.byte r.transport :: writeEntries es = value := by
  obtain ⟨transport, entries⟩ := r
  have htable : ∀ qs, Table.collect readEntry (fun m => Fault.payload (.repeatedEntry m))
      Table.empty qs = .ok entries ↔
        ∃ es : List (Mode × ReportEntry), es.Perm entries.entries ∧ es.map quad = qs :=
    fun qs => Table.collect_eq_ok_iff_of_write readEntry_eq_ok_iff
  unfold read
  constructor
  · intro h
    split at h
    · cases h
    · rename_i technology rest
      split at h
      · cases h
      · rename_i transport' htransport
        split at h
        · cases h
        · rename_i qs hqs
          obtain ⟨table, hcollect, h⟩ := bind_eq_ok.mp h
          cases h
          obtain ⟨es, hperm, rfl⟩ := (htable qs).mp hcollect
          refine ⟨es, hperm, ?_⟩
          rw [writeEntries_eq, quads_eq_some_iff.mp hqs, Enumeration.byte_of_ofByte? htransport]
  · rintro ⟨es, hperm, rfl⟩
    have hqs : quads (writeEntries es) = some (es.map quad) := by
      rw [writeEntries_eq, quads_flatMap]
    simp only [Enumeration.ofByte?_byte, hqs, (htable _).mpr ⟨es, hperm, rfl⟩]
    rfl

theorem Network.splitRoutes_writeRoutes (es : List (Address × Address)) (gateway : Address) :
    splitRoutes (writeRoutes es ++ [gateway.value]) = some (es, gateway) := by
  induction es with
  | nil => rfl
  | cons e es ih =>
    obtain ⟨destination, hop⟩ := e
    simp only [writeRoutes, List.cons_append]
    rw [splitRoutes]
    · rw [ih]
      rfl

theorem Network.writeRoutes_of_splitRoutes {value : Bytes} {es : List (Address × Address)}
    {gateway : Address} (h : splitRoutes value = some (es, gateway)) :
    writeRoutes es ++ [gateway.value] = value := by
  induction value using splitRoutes.induct generalizing es with
  | case1 => cases h
  | case2 gateway =>
    cases h
    rfl
  | case3 destination hop rest ih =>
    rw [splitRoutes] at h
    · obtain ⟨⟨es', gateway'⟩, hsplit, hes⟩ := Option.map_eq_some_iff.mp h
      cases hes
      rw [writeRoutes, List.cons_append, List.cons_append, ih hsplit]

/-- And the routes of a network. -/
theorem Network.read_eq_ok_iff {value : Bytes} {n : Network} :
    read value = .ok n ↔ ∃ es, es.Perm n.routes.entries ∧
      n.localAddress.value :: (writeRoutes es ++ [n.gateway.value]) = value := by
  obtain ⟨localAddress, routes, gateway⟩ := n
  unfold read
  constructor
  · intro h
    simp only at h
    split at h
    · cases h
    · rename_i first rest
      split at h
      · cases h
      · rename_i es gateway' hsplit
        obtain ⟨table, htable, h⟩ := bind_eq_ok.mp h
        cases h
        exact ⟨es, Table.ofDistinct_eq_ok_iff.mp htable,
          congrArg (first :: ·) (writeRoutes_of_splitRoutes hsplit)⟩
  · rintro ⟨es, hperm, rfl⟩
    simp only [splitRoutes_writeRoutes, Table.ofDistinct_eq_ok_iff.mpr hperm]
    rfl

theorem ModeGraph.read_write (g : ModeGraph) : ModeGraph.read (ModeGraph.write g) = .ok g :=
  read_eq_ok_iff.mpr ⟨g.entries, .refl _, rfl⟩

theorem Reporting.read_write (r : Reporting) : Reporting.read r.write = .ok r :=
  read_eq_ok_iff.mpr ⟨r.entries.entries, .refl _, rfl⟩

theorem Network.read_write (n : Network) : Network.read n.write = .ok n :=
  read_eq_ok_iff.mpr ⟨n.routes.entries, .refl _, rfl⟩

theorem ModeList.read_write (m : ModeList) : ModeList.read m.write = .ok m := by
  obtain ⟨modes, index, hlt⟩ := m
  simp [ModeList.read, ModeList.write, ModeList.make, hlt]

/-! ## Records back to back -/

namespace Module

theorem decodeAll_nil : decodeAll [] = .ok [] := by
  rw [decodeAll]
  rfl

/-- The first record of a byte string decides how it is decoded. -/
theorem decodeAll_of_take {bs rest : Bytes} {r : Record} (h : Record.take bs = (.ok r, rest)) :
    decodeAll bs = (do
      let m ← decode r.code r.value
      let ms ← decodeAll rest
      return m :: ms) := by
  have hne : bs.isEmpty = false := by
    cases bs with
    | nil => simp [Record.take] at h
    | cons b bs => rfl
  rw [decodeAll, hne]
  simp only [Bool.false_eq_true, if_false]
  split
  · rename_i e rest' htake
    rw [h] at htake
    cases htake
  · rename_i r' rest' htake
    rw [h] at htake
    cases htake
    cases decode r.code r.value with
    | error e => rfl
    | ok m => cases decodeAll rest <;> rfl

theorem decodeAll_of_take_error {bs rest : Bytes} {e : Fault} (hne : bs ≠ [])
    (h : Record.take bs = (.error e, rest)) : decodeAll bs = .error e := by
  have hempty : bs.isEmpty = false := by simpa using hne
  rw [decodeAll, hempty]
  simp only [Bool.false_eq_true, if_false]
  split
  · rename_i e' rest' htake
    rw [h] at htake
    cases htake
    rfl
  · rename_i r rest' htake
    rw [h] at htake
    cases htake

/-- The record of a module whose value fits one. -/
def record (m : Module) (h : m.value.length ≤ Limits.maxRecordValue) : Record :=
  ⟨m.code, m.value, h⟩

theorem decodeAll_frame_append {m : Module} (hfit : m.value.length ≤ Limits.maxRecordValue)
    (hdecode : decode m.code m.value = .ok m) (rest : Bytes) :
    decodeAll (m.frame ++ rest) = (decodeAll rest).map (m :: ·) := by
  have htake : Record.take (m.frame ++ rest) = (.ok (m.record hfit), rest) :=
    Record.take_encode_append (m.record hfit) rest
  rw [decodeAll_of_take htake]
  simp only [record, hdecode]
  cases decodeAll rest <;> rfl

theorem decodeAll_flatMap_frame {ms : List Module}
    (hfit : ∀ m ∈ ms, m.value.length ≤ Limits.maxRecordValue)
    (hdecode : ∀ m ∈ ms, decode m.code m.value = .ok m) :
    decodeAll (ms.flatMap frame) = .ok ms := by
  induction ms with
  | nil => exact decodeAll_nil
  | cons m ms ih =>
    have hrest := ih (fun m' hm => hfit m' (List.mem_cons_of_mem _ hm))
      (fun m' hm => hdecode m' (List.mem_cons_of_mem _ hm))
    rw [List.flatMap_cons, decodeAll_frame_append (hfit m List.mem_cons_self)
      (hdecode m List.mem_cons_self), hrest]
    rfl

end Module

/-! ## The four aspects of the hydrophone -/

/-- The records of the aspects, as modules. -/
def Hydrophone.modules (h : Hydrophone) : List Module :=
  [.hydrophoneStatus h.status, .hydrophoneLogging h.logging, .hydrophoneStreaming h.streaming,
    .hydrophoneStats h.stats]

theorem Hydrophone.write_eq_flatMap (h : Hydrophone) :
    h.write = h.modules.flatMap Module.frame := by
  simp [Hydrophone.write, Hydrophone.modules, Module.frame, Module.code, Module.value]

/-! ## Every module -/

/-- The length of the values under a code, where all of them have the same. -/
def ModuleCode.fixedLength? : ModuleCode → Option Nat
  | battery => some 2
  | location => some 8
  | clock => some 8
  | storage => some 8
  | ambient => some 2
  | hydrophone => some (4 * Limits.recordHeaderSize + 34 + 19 + 18 + 11)
  | hydrophoneStatus => some 34
  | hydrophoneLogging => some 19
  | hydrophoneStreaming => some 18
  | hydrophoneStats => some 11
  | network => none
  | modeList => none
  | modeGraph => none
  | reporting => none
  | acoustics => none

namespace Module

theorem length_value {m : Module} {n : Nat} (h : m.code.fixedLength? = some n) :
    m.value.length = n := by
  cases m <;> cases h
  case battery b => exact Battery.layout.length_write b
  case location l => exact Location.layout.length_write l
  case clock c => exact Clock.layout.length_write c
  case storage s => exact Storage.layout.length_write s
  case ambient a => exact Ambient.layout.length_write a
  case hydrophoneStatus s => exact HydrophoneStatus.layout.length_write s
  case hydrophoneLogging c => exact HydrophoneLogging.layout.length_write c
  case hydrophoneStreaming c => exact HydrophoneStreaming.layout.length_write c
  case hydrophoneStats s => exact HydrophoneStats.layout.length_write s
  case hydrophone h =>
    simp only [value, Hydrophone.write, Record.frame, List.length_append, List.length_cons,
      Layout.length_write]
    rfl

theorem fits_of_fixedLength {m : Module} (h : m.code.fixedLength?.isSome) :
    m.value.length ≤ Limits.maxRecordValue := by
  obtain ⟨n, hn⟩ := Option.isSome_iff_exists.mp h
  rw [length_value hn]
  revert hn
  cases m.code <;>
    simp [ModuleCode.fixedLength?, Limits.recordHeaderSize, Limits.maxRecordValue] <;>
    omega

end Module

theorem Hydrophone.decodeAll_write (h : Hydrophone) : Module.decodeAll h.write = .ok h.modules := by
  rw [h.write_eq_flatMap]
  apply Module.decodeAll_flatMap_frame
  · simp only [modules, List.mem_cons, List.not_mem_nil, or_false]
    rintro m (rfl | rfl | rfl | rfl) <;> exact Module.fits_of_fixedLength rfl
  · simp only [modules, List.mem_cons, List.not_mem_nil, or_false]
    rintro m (rfl | rfl | rfl | rfl) <;>
      simp only [Module.code, Module.value, Module.decode, Layout.readValue_write, Except.map]

theorem Module.decode_value (m : Module) : decode m.code m.value = .ok m := by
  cases m
  case network n => simp only [code, value, decode, n.read_write, Except.map]
  case modeList l => simp only [code, value, decode, l.read_write, Except.map]
  case modeGraph g => simp only [code, value, decode, ModeGraph.read_write g, Except.map]
  case reporting r => simp only [code, value, decode, r.read_write, Except.map]
  case acoustics v => simp only [code, value, decode]
  case hydrophone h => simp only [code, value, decode, h.decodeAll_write, Hydrophone.modules]
  all_goals simp only [code, value, decode, Layout.readValue_write, Except.map]

theorem Module.decodeAll_records {ms : List Module}
    (h : ∀ m ∈ ms, m.value.length ≤ Limits.maxRecordValue) :
    decodeAll (ms.flatMap frame) = .ok ms :=
  decodeAll_flatMap_frame h fun m _ => m.decode_value

end AcousticNode
