import AcousticNode.Fault
import AcousticNode.Wire.Limits

/-!
# Records

A record is a tag, a length of one octet, and a value of that length.  Records stand back to
back and need no separator.

* `take_encode_append` : a record is taken off the front of any byte string that starts with
  it, and the rest stays;
* `eq_encode_append_of_take` : what is taken and what stays make up the byte string;
* `count_frame_append` : each record counts once, whatever its tag.
-/

set_option autoImplicit false

namespace AcousticNode

/-- A value with the tag that says what it describes. -/
structure Record where
  code : ModuleCode
  value : Bytes
  fits : value.length ≤ Limits.maxRecordValue
  deriving DecidableEq

namespace Record

/-- A record, whose value must fit a one-octet length. -/
def make (code : ModuleCode) (value : Bytes) : Except Fault Record :=
  if h : value.length ≤ Limits.maxRecordValue then .ok ⟨code, value, h⟩
  else .error (.valueTooLong value.length)

/-- Header and value together. -/
def size (r : Record) : Nat := Limits.recordHeaderSize + r.value.length

/-- Tag, length and value.  The length is kept modulo 256, so it is right for values that fit. -/
def frame (tag : UInt8) (value : Bytes) : Bytes := tag :: UInt8.ofNat value.length :: value

/-- The octets of a record. -/
def encode (r : Record) : Bytes := frame r.code.byte r.value

/-- Takes a record off the front of a byte string and leaves the rest.  On failure everything
stays. -/
def take (bs : Bytes) : Except Fault Record × Bytes :=
  match bs with
  | tag :: len :: rest =>
    match Enumeration.ofByte? tag with
    | none => (.error (.unknownModule tag), bs)
    | some code =>
      if len.toNat ≤ rest.length then
        (.ok ⟨code, rest.take len.toNat, by
          have := len.toNat_lt
          simp only [List.length_take, Limits.maxRecordValue]
          omega⟩, rest.drop len.toNat)
      else (.error (.insufficient (Limits.recordHeaderSize + len.toNat) bs.length), bs)
  | short => (.error (.insufficient Limits.recordHeaderSize short.length), short)

/-- How many back-to-back records a byte string is cut into, whatever their tags. -/
def count (bs : Bytes) : Except Fault Nat :=
  match bs with
  | [] => .ok 0
  | [_] => .error (.insufficient Limits.recordHeaderSize 1)
  | _ :: len :: rest =>
    if len.toNat ≤ rest.length then (count (rest.drop len.toNat)).map (· + 1)
    else .error (.insufficient (Limits.recordHeaderSize + len.toNat) (rest.length + 2))
termination_by bs.length
decreasing_by simp only [List.length_drop, List.length_cons]; omega

theorem toNat_length {value : Bytes} (h : value.length ≤ Limits.maxRecordValue) :
    (UInt8.ofNat value.length).toNat = value.length := by
  simp only [Limits.maxRecordValue] at h
  simp only [UInt8.toNat_ofNat']
  omega

theorem take_encode_append (r : Record) (rest : Bytes) :
    take (r.encode ++ rest) = (.ok r, rest) := by
  have hlen := toNat_length r.fits
  simp only [encode, frame, List.cons_append, take, Enumeration.ofByte?_byte, hlen]
  rw [if_pos (by simp)]
  simp

theorem eq_encode_append_of_take {bs rest : Bytes} {r : Record}
    (h : take bs = (.ok r, rest)) : bs = r.encode ++ rest := by
  unfold take at h
  split at h
  · rename_i tag len body
    split at h
    · simp at h
    · rename_i code hcode
      split at h
      · rename_i hle
        simp only [Prod.mk.injEq, Except.ok.injEq] at h
        obtain ⟨rfl, rfl⟩ := h
        simp only [encode, frame, Enumeration.byte_of_ofByte? hcode, List.length_take,
          Nat.min_eq_left hle, UInt8.ofNat_toNat, List.cons_append, List.take_append_drop]
      · simp at h
  · simp at h

theorem length_of_take {bs rest : Bytes} {r : Record} (h : take bs = (.ok r, rest)) :
    bs.length = r.size + rest.length := by
  rw [eq_encode_append_of_take h]
  simp [encode, frame, size, Limits.recordHeaderSize]
  omega

theorem take_error {bs rest : Bytes} {e : Fault} (h : take bs = (.error e, rest)) :
    rest = bs := by
  unfold take at h
  split at h
  · split at h
    · exact (Prod.mk.inj h).2.symm
    · split at h
      · simp at h
      · exact (Prod.mk.inj h).2.symm
  · exact (Prod.mk.inj h).2.symm

theorem count_frame_append (tag : UInt8) {value : Bytes}
    (h : value.length ≤ Limits.maxRecordValue) (rest : Bytes) :
    count (frame tag value ++ rest) = (count rest).map (· + 1) := by
  rw [frame, List.cons_append, List.cons_append, count, toNat_length h, if_pos (by simp)]
  simp

end Record

end AcousticNode
