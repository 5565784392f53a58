import AcousticNode.Payload.Basic
import AcousticNode.Proofs.Outcome

/-!
# The faults of payloads

Decoding a payload fails because of the payload's own octets: it is cut short, it has an unknown
tag, a length that does not suit the tag, an octet out of range, or its records do not belong
together.  No other fault comes out of it, so the checks around a payload keep faults of their
own.

* `Payload.decode_contents` : whatever the operation code and the direction.
-/

set_option autoImplicit false

namespace AcousticNode

open Outcome

/-- Whether a fault blames the octets of a payload. -/
def Fault.blamesContents : Fault → Bool
  | insufficient _ _ => true
  | unknownModule _ => true
  | unknownReport _ => true
  | badOctet _ _ => true
  | valueLength _ _ _ => true
  | payload _ => true
  | _ => false

/-- A step that fails only because of the octets that it is given. -/
def Contents {α : Type} (x : Except Fault α) : Prop := ∀ e, x = .error e → e.blamesContents = true

namespace Contents

variable {α β : Type}

theorem ok (a : α) : Contents (.ok a) := by
  intro e h
  cases h

theorem error {e : Fault} (h : e.blamesContents = true) :
    Contents (.error e : Except Fault α) := by
  intro e' h'
  cases h'
  exact h

theorem map {x : Except Fault α} (f : α → β) (h : Contents x) : Contents (x.map f) :=
  fun e he => h e (map_eq_error.mp he)

theorem bind {x : Except Fault α} {f : α → Except Fault β} (hx : Contents x)
    (hf : ∀ a, Contents (f a)) : Contents (x >>= f) := by
  intro e he
  rcases bind_eq_error.mp he with he | ⟨a, _, he⟩
  · exact hx e he
  · exact hf a e he

end Contents

/-! ## Layouts -/

namespace Layout

variable {α β : Type}

/-- A layout that reads, or blames the octets. -/
def Reads (l : Layout α) : Prop := ∀ bs, Contents (l.read bs)

namespace Reads

theorem seq {l : Layout α} {r : Layout β} (hl : l.Reads) (hr : r.Reads) : (l.seq r).Reads :=
  fun bs => (hl (bs.take l.width)).bind fun a =>
    (hr (bs.drop l.width)).bind fun b => Contents.ok (a, b)

theorem rename {l : Layout α} {f : α → β} {g : β → α} {left_inv : ∀ a, g (f a) = a}
    {right_inv : ∀ b, f (g b) = b} (hl : l.Reads) : (l.rename f g left_inv right_inv).Reads :=
  fun bs => (hl bs).map f

theorem octet : octet.Reads := fun _ => Contents.ok _

theorem littleEndian (w : Nat) : (littleEndian w).Reads := fun _ => Contents.ok _

theorem bigEndian (w : Nat) : (bigEndian w).Reads := fun _ => Contents.ok _

theorem enumerated (α : Type) [Enumeration α] (field : OctetField) :
    (enumerated α field).Reads := by
  intro bs
  simp only [Layout.enumerated]
  split
  · exact Contents.ok _
  · exact Contents.error rfl

theorem readValue {l : Layout α} (hl : l.Reads) (code : ModuleCode) (value : Bytes) :
    Contents (l.readValue code value) := by
  unfold Layout.readValue
  split
  · exact hl value
  · exact Contents.error rfl

end Reads

end Layout

open Layout (Reads)

theorem Battery.reads : Battery.layout.Reads := (Reads.octet.seq (.enumerated _ _)).rename

theorem Location.reads : Location.layout.Reads :=
  ((Reads.littleEndian 4).rename.seq (Reads.littleEndian 4).rename).rename

theorem Clock.reads : Clock.layout.Reads := (Reads.littleEndian 8).rename.rename

theorem Storage.reads : Storage.layout.Reads :=
  ((Reads.littleEndian 4).rename.seq (Reads.littleEndian 4).rename).rename

theorem Ambient.reads : Ambient.layout.Reads := (Reads.octet.seq .octet).rename

theorem HydrophoneStatus.reads : HydrophoneStatus.layout.Reads :=
  (Reads.octet.seq <| Reads.octet.seq <| (Reads.littleEndian 8).rename.seq <|
    (Reads.littleEndian 8).rename.seq <| (Reads.littleEndian 8).rename.seq
    (Reads.littleEndian 8).rename).rename

theorem HydrophoneLogging.reads : HydrophoneLogging.layout.Reads :=
  ((Reads.bigEndian 2).rename.seq <| (Reads.bigEndian 4).rename.seq <| Reads.octet.seq <|
    Reads.octet.seq <| Reads.octet.seq <| (Reads.bigEndian 4).rename.seq <|
    (Reads.bigEndian 2).rename.seq <| (Reads.bigEndian 2).rename.seq <|
    Reads.octet.seq .octet).rename

theorem HydrophoneStreaming.reads : HydrophoneStreaming.layout.Reads :=
  ((Reads.enumerated _ _).seq <| (Reads.enumerated _ _).seq <| Reads.octet.seq <|
    Reads.octet.seq <| Reads.octet.seq <| (Reads.enumerated _ _).seq <|
    (Reads.enumerated _ _).seq <| Reads.octet.seq <| Reads.octet.seq <|
    Reads.octet.seq (Reads.littleEndian 8).rename).rename

theorem HydrophoneStats.reads : HydrophoneStats.layout.Reads :=
  ((Reads.littleEndian 8).rename.seq <| Reads.octet.seq <| Reads.octet.seq .octet).rename

/-! ## Values that hold lists -/

theorem Table.collect_contents {κ β α : Type} [Rank κ] {read : α → Except Fault (κ × β)}
    {repeated : κ → Fault} (hread : ∀ a, Contents (read a))
    (hrepeated : ∀ k, (repeated k).blamesContents = true) (as : List α) (t : Table κ β) :
    Contents (Table.collect read repeated t as) := by
  induction as generalizing t with
  | nil => exact Contents.ok t
  | cons a as ih =>
    refine (hread a).bind fun (k, v) => ?_
    simp only
    split
    · exact Contents.error (hrepeated k)
    · exact ih (t.insert k v)

theorem Network.read_contents (value : Bytes) : Contents (Network.read value) := by
  unfold Network.read
  simp only
  split
  · exact Contents.error rfl
  · split
    · exact Contents.error rfl
    · rename_i routes gateway _
      have htable : Contents (Table.ofDistinct (fun d => .payload (.repeatedRoute d)) routes) :=
        Table.collect_contents Contents.ok (fun _ => rfl) _ _
      exact htable.bind fun _ => Contents.ok _

theorem ModeList.read_contents (value : Bytes) : Contents (ModeList.read value) := by
  unfold ModeList.read
  split
  · exact Contents.error rfl
  · unfold ModeList.make
    split
    · exact Contents.ok _
    · exact Contents.error rfl

theorem ModeGraph.read_contents (value : Bytes) : Contents (ModeGraph.read value) := by
  unfold ModeGraph.read
  split
  · exact Contents.error rfl
  · exact Table.collect_contents (fun _ => Contents.ok _) (fun _ => rfl) _ _

theorem Reporting.readEntry_contents (q : UInt8 × UInt8 × UInt8 × UInt8) :
    Contents (Reporting.readEntry q) := by
  obtain ⟨mode, high, low, report⟩ := q
  have hreport : Contents (ReportType.ofByte report) := by
    unfold ReportType.ofByte
    split
    · exact Contents.ok _
    · exact Contents.error rfl
  exact hreport.bind fun _ => Contents.ok _

theorem Reporting.read_contents (value : Bytes) : Contents (Reporting.read value) := by
  unfold Reporting.read
  split
  · exact Contents.error rfl
  · split
    · exact Contents.error rfl
    · split
      · exact Contents.error rfl
      · exact (Table.collect_contents Reporting.readEntry_contents (fun _ => rfl) _ _).bind
          fun _ => Contents.ok _

/-! ## Modules -/

theorem Record.take_contents {bs rest : Bytes} {x : Except Fault Record}
    (h : Record.take bs = (x, rest)) : Contents x := by
  unfold Record.take at h
  split at h
  · split at h
    · cases h
      exact Contents.error rfl
    · split at h
      · cases h
        exact Contents.ok _
      · cases h
        exact Contents.error rfl
  · cases h
    exact Contents.error rfl

namespace Module

/-- A hydrophone apart, whose value is a sequence of records itself. -/
theorem decode_contents_of_decodeAll {value : Bytes} (hall : Contents (decodeAll value))
    (code : ModuleCode) : Contents (decode code value) := by
  cases code <;> rw [decode]
  case battery => exact (Battery.reads.readValue _ _).map _
  case location => exact (Location.reads.readValue _ _).map _
  case network => exact (Network.read_contents _).map _
  case modeList => exact (ModeList.read_contents _).map _
  case modeGraph => exact (ModeGraph.read_contents _).map _
  case reporting => exact (Reporting.read_contents _).map _
  case clock => exact (Clock.reads.readValue _ _).map _
  case storage => exact (Storage.reads.readValue _ _).map _
  case ambient => exact (Ambient.reads.readValue _ _).map _
  case acoustics => exact Contents.ok _
  case hydrophone =>
    split
    · exact Contents.ok _
    · exact Contents.error rfl
    · rename_i e he
      exact Contents.error (hall e he)
  case hydrophoneStatus => exact (HydrophoneStatus.reads.readValue _ _).map _
  case hydrophoneLogging => exact (HydrophoneLogging.reads.readValue _ _).map _
  case hydrophoneStreaming => exact (HydrophoneStreaming.reads.readValue _ _).map _
  case hydrophoneStats => exact (HydrophoneStats.reads.readValue _ _).map _

/-- The value of a record and what follows it are both shorter than the whole, so the induction
is on the length. -/
theorem decodeAll_contents_of_length_le :
    ∀ (n : Nat) (bs : Bytes), bs.length ≤ n → Contents (decodeAll bs)
  | _, [], _ => by
    rw [decodeAll]
    exact Contents.ok []
  | 0, _ :: _, hlen => by simp at hlen
  | n + 1, b :: bs, hlen => by
    rw [decodeAll]
    simp only [List.isEmpty_cons, Bool.false_eq_true, if_false]
    split
    · rename_i e rest htake
      exact Contents.error (Record.take_contents htake e rfl)
    · rename_i r rest htake
      have hshort := Record.length_of_take htake
      simp only [Record.size, Limits.recordHeaderSize] at hshort
      have hvalue : Contents (decode r.code r.value) :=
        decode_contents_of_decodeAll (decodeAll_contents_of_length_le n r.value (by omega)) r.code
      have hrest : Contents (decodeAll rest) :=
        decodeAll_contents_of_length_le n rest (by omega)
      split
      · rename_i e he
        exact Contents.error (hvalue e he)
      · split
        · rename_i e he
          exact Contents.error (hrest e he)
        · exact Contents.ok _

theorem decodeAll_contents (bs : Bytes) : Contents (decodeAll bs) :=
  decodeAll_contents_of_length_le bs.length bs (Nat.le_refl _)

end Module

/-! ## Payloads -/

theorem expectLength_contents (data : Bytes) (size : Nat) : Contents (expectLength data size) := by
  unfold expectLength
  split
  · exact Contents.error rfl
  · split
    · exact Contents.error rfl
    · exact Contents.ok ()

theorem decodeCodes_contents (data : Bytes) : Contents (decodeCodes data) := by
  induction data with
  | nil => exact Contents.ok []
  | cons b bs ih =>
    rw [decodeCodes]
    split
    · exact Contents.error rfl
    · exact ih.map _

theorem Record.count_contents (bs : Bytes) : Contents (Record.count bs) := by
  induction bs using Record.count.induct with
  | case1 =>
    rw [count]
    exact Contents.ok 0
  | case2 b =>
    rw [count]
    exact Contents.error rfl
  | case3 tag len rest hle ih =>
    rw [count, if_pos hle]
    exact ih.map _
  | case4 tag len rest hle =>
    rw [count, if_neg hle]
    exact Contents.error rfl

theorem RecordList.ofBytes_contents (data : Bytes) : Contents (RecordList.ofBytes data) := by
  unfold RecordList.ofBytes
  split
  · exact Contents.ok _
  · rename_i e he
    exact Contents.error (Record.count_contents data e he)

theorem HydrophoneUpdate.place_contents (u : HydrophoneUpdate) (m : Module) :
    Contents (u.place m) := by
  unfold place
  split
  case h_5 => exact Contents.error rfl
  all_goals
    split
    · exact Contents.error rfl
    · exact Contents.ok _

theorem HydrophoneUpdate.placeAll_contents (ms : List Module) (u : HydrophoneUpdate) :
    Contents (u.placeAll ms) := by
  induction ms generalizing u with
  | nil => exact Contents.ok u
  | cons m ms ih => exact (u.place_contents m).bind fun v => ih v

theorem HydrophoneUpdate.decode_contents (data : Bytes) :
    Contents (HydrophoneUpdate.decode data) :=
  (Module.decodeAll_contents data).bind fun ms => placeAll_contents ms empty

theorem BasicReport.decode_contents (data : Bytes) : Contents (BasicReport.decode data) := by
  refine (expectLength_contents data size).bind fun _ =>
    (Module.decodeAll_contents data).bind fun ms => ?_
  split
  · exact Contents.ok _
  · exact Contents.error rfl

theorem CompleteReport.decode_contents (data : Bytes) :
    Contents (CompleteReport.decode data) := by
  refine (expectLength_contents data size).bind fun _ =>
    (Module.decodeAll_contents data).bind fun ms => ?_
  split
  · exact Contents.ok _
  · exact Contents.error rfl

theorem ErrorCode.decode_contents (data : Bytes) : Contents (ErrorCode.decode data) :=
  (expectLength_contents data size).bind fun _ => Reads.enumerated _ _ data

theorem AspectMask.decode_contents (data : Bytes) : Contents (AspectMask.decode data) :=
  (expectLength_contents data size).bind fun _ => Contents.ok _

theorem Payload.decode_contents (op : Opcode) (routing : Routing) (data : Bytes) :
    Contents (Payload.decode op routing data) := by
  cases op <;> simp only [Payload.decode]
  case errorReport => exact (ErrorCode.decode_contents data).map _
  case basicStatus =>
    split
    · exact Contents.ok _
    · exact (BasicReport.decode_contents data).map _
  case completeStatus =>
    split
    · exact Contents.ok _
    · exact (CompleteReport.decode_contents data).map _
  case setConfiguration => exact (RecordList.ofBytes_contents data).map _
  case getConfiguration =>
    split
    · exact (RecordList.ofBytes_contents data).map _
    · exact (decodeCodes_contents data).map _
  case getHydrophone =>
    split
    · exact (HydrophoneUpdate.decode_contents data).map _
    · exact (AspectMask.decode_contents data).map _
  case setHydrophone => exact (HydrophoneUpdate.decode_contents data).map _

end AcousticNode
