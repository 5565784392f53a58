import AcousticNode.Bytes.Word
import AcousticNode.Wire.Limits

/-!
# The packet checksum

A sixteen-bit cyclic redundancy check with generator `x^16 + x^12 + x^5 + 1`.  The register
starts with all bits set, takes the bits of each octet from the most significant one, and is
not altered at the end.

* `verify_append` : a byte string followed by its checksum verifies;
* `eq_append_of_verify` : nothing else does.
-/

set_option autoImplicit false

namespace AcousticNode

/-- The bits of an octet in the order in which they are sent. -/
def octetBits (b : UInt8) : List Bool :=
  [7, 6, 5, 4, 3, 2, 1, 0].map fun i => b.toNat.testBit i

namespace Bytes

/-- The bits of a byte string in the order in which they are sent. -/
def bits (bs : Bytes) : List Bool := bs.flatMap octetBits

end Bytes

namespace Checksum

/-- The generator without its leading term. -/
def generator : UInt16 := 0x1021

/-- The register before the first bit. -/
def start : UInt16 := 0xffff

/-- Takes one bit into the register. -/
def shift (register : UInt16) (bit : Bool) : UInt16 :=
  if (register >>> 15 == 1) != bit then (register <<< 1) ^^^ generator else register <<< 1

/-- The checksum of a byte string. -/
def compute (bs : Bytes) : UInt16 := bs.bits.foldl shift start

/-- The two octets of a checksum as they are sent. -/
def toBytes (c : UInt16) : Bytes := Bytes.bigEndian Limits.checksumSize c.toNat

/-- The checksum that two octets spell. -/
def ofBytes (bs : Bytes) : UInt16 := UInt16.ofNat (Bytes.fromBigEndian bs)

/-- A byte string followed by its checksum. -/
def append (bs : Bytes) : Bytes := bs ++ toBytes (compute bs)

/-- What precedes the last two octets, and the checksum that these two spell. -/
def split? (frame : Bytes) : Option (Bytes × UInt16) :=
  if frame.length < Limits.checksumSize then none
  else
    let n := frame.length - Limits.checksumSize
    some (frame.take n, ofBytes (frame.drop n))

/-- Whether the last two octets are the checksum of what precedes them. -/
def verify (frame : Bytes) : Bool :=
  match split? frame with
  | some (body, found) => compute body == found
  | none => false

@[simp] theorem length_toBytes (c : UInt16) : (toBytes c).length = Limits.checksumSize := by
  simp [toBytes]

theorem wordCount_checksumSize : Bytes.wordCount Limits.checksumSize = 65536 := rfl

theorem ofBytes_toBytes (c : UInt16) : ofBytes (toBytes c) = c := by
  have hc : c.toNat < 65536 := c.toNat_lt
  simp only [ofBytes, toBytes, Bytes.fromBigEndian_bigEndian, wordCount_checksumSize]
  rw [Nat.mod_eq_of_lt hc]
  simp

theorem toBytes_ofBytes {bs : Bytes} (h : bs.length = Limits.checksumSize) :
    toBytes (ofBytes bs) = bs := by
  have hlt := Bytes.fromBigEndian_lt bs
  rw [h, wordCount_checksumSize] at hlt
  have hw := Bytes.bigEndian_fromBigEndian bs
  rw [h] at hw
  simp only [toBytes, ofBytes, UInt16.toNat_ofNat']
  rw [Nat.mod_eq_of_lt hlt]
  exact hw

theorem split?_append (bs : Bytes) : split? (append bs) = some (bs, compute bs) := by
  have h : (append bs).length = bs.length + Limits.checksumSize := by simp [append]
  simp only [split?, h]
  rw [if_neg (by omega), Nat.add_sub_cancel]
  simp [append, ofBytes_toBytes]

theorem verify_append (bs : Bytes) : verify (append bs) = true := by
  simp [verify, split?_append]

theorem eq_append_of_verify {frame : Bytes} (h : verify frame = true) :
    ∃ body, frame = append body := by
  unfold verify at h
  split at h
  · rename_i body found hs
    simp only [split?] at hs
    split at hs
    · simp at hs
    · rename_i hlen
      simp only [Option.some.injEq, Prod.mk.injEq] at hs
      obtain ⟨hb, hf⟩ := hs
      refine ⟨body, ?_⟩
      have hc : compute body = found := by simpa using h
      rw [append, hc, ← hf, toBytes_ofBytes (by simp; omega), ← hb, List.take_append_drop]
  · simp at h

end Checksum

end AcousticNode
