import AcousticNode.Fault
import AcousticNode.Wire.Binary

/-!
# Fixed layouts

A layout writes the values of a type in a fixed number of octets and reads them back.  Reading
may refuse, since an octet can be restricted to a few values.  Layouts are built from words by
putting them in sequence and by renaming values, and every layout carries the laws that make
it a code: what is written is read back, and what is read is written as it was.
-/

set_option autoImplicit false

namespace AcousticNode

/-- A code of fixed width for the values of a type. -/
structure Layout (α : Type) where
  width : Nat
  write : α → Bytes
  /-- Reads exactly `width` octets. -/
  read : Bytes → Except Fault α
  length_write : ∀ a, (write a).length = width
  read_write : ∀ a, read (write a) = .ok a
  write_of_read : ∀ bs a, bs.length = width → read bs = .ok a → write a = bs

namespace Layout

variable {α β : Type}

/-- Reads a value that has to fill the layout. -/
def readValue (l : Layout α) (code : ModuleCode) (value : Bytes) : Except Fault α :=
  if value.length = l.width then l.read value
  else .error (.valueLength code l.width value.length)

theorem readValue_write (l : Layout α) (code : ModuleCode) (a : α) :
    l.readValue code (l.write a) = .ok a := by
  simp [readValue, l.length_write, l.read_write]

theorem write_of_readValue (l : Layout α) {code : ModuleCode} {value : Bytes} {a : α}
    (h : l.readValue code value = .ok a) : l.write a = value := by
  unfold readValue at h
  split at h
  · exact l.write_of_read value a (by assumption) h
  · simp at h

/-- One layout after another. -/
def seq (l : Layout α) (r : Layout β) : Layout (α × β) where
  width := l.width + r.width
  write p := l.write p.1 ++ r.write p.2
  read bs := do
    let a ← l.read (bs.take l.width)
    let b ← r.read (bs.drop l.width)
    return (a, b)
  length_write p := by simp [l.length_write, r.length_write]
  read_write p := by
    rw [List.take_left' (l.length_write p.1), List.drop_left' (l.length_write p.1),
      l.read_write, r.read_write]
    rfl
  write_of_read bs p hlen h := by
    cases ha : l.read (bs.take l.width) with
    | error e => simp [ha, bind, Except.bind] at h
    | ok a =>
      cases hb : r.read (bs.drop l.width) with
      | error e => simp [ha, hb, bind, Except.bind] at h
      | ok b =>
        simp only [ha, hb, bind, Except.bind, pure, Except.pure, Except.ok.injEq] at h
        subst h
        rw [l.write_of_read _ a (by simp; omega) ha, r.write_of_read _ b (by simp; omega) hb,
          List.take_append_drop]

/-- The same octets under other names. -/
def rename (l : Layout α) (f : α → β) (g : β → α) (left_inv : ∀ a, g (f a) = a)
    (right_inv : ∀ b, f (g b) = b) : Layout β where
  width := l.width
  write b := l.write (g b)
  read bs := (l.read bs).map f
  length_write b := l.length_write (g b)
  read_write b := by simp [l.read_write, Except.map, right_inv]
  write_of_read bs b hlen h := by
    cases ha : l.read bs with
    | error e => simp [ha, Except.map] at h
    | ok a =>
      simp only [ha, Except.map, Except.ok.injEq] at h
      rw [← h, left_inv]
      exact l.write_of_read bs a hlen ha

/-- One octet, any value. -/
def octet : Layout UInt8 where
  width := 1
  write b := [b]
  read bs := .ok (bs.headD 0)
  length_write _ := rfl
  read_write _ := rfl
  write_of_read bs a hlen h := by
    match bs, hlen with
    | [b], _ => simpa using h.symm

/-- One octet that has to be the octet of some value of the enumeration. -/
def enumerated (α : Type) [Enumeration α] (field : OctetField) : Layout α where
  width := 1
  write a := [Enumeration.byte a]
  read bs :=
    match Enumeration.ofByte? (bs.headD 0) with
    | some a => .ok a
    | none => .error (.badOctet field (bs.headD 0))
  length_write _ := rfl
  read_write a := by simp [Enumeration.ofByte?_byte]
  write_of_read bs a hlen h := by
    match bs, hlen with
    | [b], _ =>
      simp only [List.headD_cons] at h
      split at h
      · rename_i a' ha
        simp only [Except.ok.injEq] at h
        rw [← h, Enumeration.byte_of_ofByte? ha]
      · simp at h

/-- A word of `w` octets, least significant octet first. -/
def littleEndian (w : Nat) : Layout (Fin (Bytes.wordCount w)) where
  width := w
  write n := Bytes.littleEndian w n.val
  read bs := .ok ⟨Bytes.fromLittleEndian bs % Bytes.wordCount w, Nat.mod_lt _ (Bytes.wordCount_pos w)⟩
  length_write n := by simp
  read_write n := by
    have h := Bytes.fromLittleEndian_littleEndian w n.val
    simp [h, Nat.mod_eq_of_lt n.isLt]
  write_of_read bs n hlen h := by
    have hlt := Bytes.fromLittleEndian_lt bs
    rw [hlen] at hlt
    simp only [Except.ok.injEq] at h
    subst h
    simp only [Nat.mod_eq_of_lt hlt]
    rw [← hlen, Bytes.littleEndian_fromLittleEndian]

/-- A word of `w` octets, most significant octet first. -/
def bigEndian (w : Nat) : Layout (Fin (Bytes.wordCount w)) where
  width := w
  write n := Bytes.bigEndian w n.val
  read bs := .ok ⟨Bytes.fromBigEndian bs % Bytes.wordCount w, Nat.mod_lt _ (Bytes.wordCount_pos w)⟩
  length_write n := by simp
  read_write n := by
    have h := Bytes.fromBigEndian_bigEndian w n.val
    simp [h, Nat.mod_eq_of_lt n.isLt]
  write_of_read bs n hlen h := by
    have hlt := Bytes.fromBigEndian_lt bs
    rw [hlen] at hlt
    simp only [Except.ok.injEq] at h
    subst h
    simp only [Nat.mod_eq_of_lt hlt]
    rw [← hlen, Bytes.bigEndian_fromBigEndian]

/-- Sixteen bits, most significant octet first. -/
def wordBE : Layout UInt16 :=
  (bigEndian 2).rename UInt16.ofFin UInt16.toFin (fun _ => rfl) (fun _ => rfl)

/-- A signed number of 32 bits, most significant octet first. -/
def int32BE : Layout Int32 :=
  (bigEndian 4).rename (fun n => ⟨UInt32.ofFin n⟩) (fun i => i.toUInt32.toFin)
    (fun _ => rfl) (fun _ => rfl)

/-- A signed number of 32 bits, least significant octet first. -/
def int32LE : Layout Int32 :=
  (littleEndian 4).rename (fun n => ⟨UInt32.ofFin n⟩) (fun i => i.toUInt32.toFin)
    (fun _ => rfl) (fun _ => rfl)

/-- A signed number of 64 bits, least significant octet first. -/
def int64LE : Layout Int64 :=
  (littleEndian 8).rename (fun n => ⟨UInt64.ofFin n⟩) (fun i => i.toUInt64.toFin)
    (fun _ => rfl) (fun _ => rfl)

/-- A single-precision number, least significant octet first. -/
def binary32LE : Layout Binary32 :=
  (littleEndian 4).rename (fun n => ⟨UInt32.ofFin n⟩) (fun x => x.bits.toFin)
    (fun _ => rfl) (fun _ => rfl)

/-- A double-precision number, least significant octet first. -/
def binary64LE : Layout Binary64 :=
  (littleEndian 8).rename (fun n => ⟨UInt64.ofFin n⟩) (fun x => x.bits.toFin)
    (fun _ => rfl) (fun _ => rfl)

end Layout

end AcousticNode
